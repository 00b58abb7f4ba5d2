import Polivunator.Modem.Texts
import Mathlib.Data.List.Induction

/-!
# Which message is deleted

In a session the modem sends notifications, each with the slot of a new
message, and replies, one to each request and in the order of the requests.  A
`Session` is the driver together with the slots of the requests that are still
to be answered.  They are read off what the driver writes, so a body that
starts with `+CMTI` adds one as well.

The slot of a request is not kept: `Work` deletes slot `1`, whatever it has
asked for.  `outstanding_eq` says which request a reply answers in terms of
what has arrived, and `settles_iff` that the deletions name the right slot if
and only if every answered request was for slot `1`.  `deletes_unread` is a
session in which the only message is in slot `2`.
-/

namespace Polivunator.SmsWork

open Labelled WString

/-! ### Sessions -/

/-- What the modem sends in a session. -/
inductive Arrival
  | notification (mm : MemoryName) (idx : LineText)
  | reply (hdr body : LineText)

namespace Arrival

def bytes : Arrival → WString
  | notification mm idx => line (notificationText mm.text idx.text)
  | reply hdr body => replyBytes hdr.text body.text

def isReply : Arrival → Bool
  | notification _ _ => false
  | reply _ _ => true

/-- The slots it makes the driver ask for. -/
def asks : Arrival → List WString
  | notification _ idx => [idx.text]
  | reply _ body => if "+CMTI".toList <+: body.text then [body.text.drop 12] else []

end Arrival

/-- An arrival over some calls of `Work`. -/
structure Delivery where
  arrival : Arrival
  waiting : List (Option Char × Option Char)
  bytes : waiting.filterMap Prod.fst = arrival.bytes

/-- The slot in a command that starts with this tag: the rest of its line. -/
def slotIn (tag text : WString) : Option WString :=
  if tag <+: text then some ((text.drop tag.length).takeWhile (fun c => decide (c ≠ '\r')))
  else none

def slotOf (tag : WString) : SimCall → Option WString
  | .write text => slotIn tag text
  | _ => none

def requests (calls : List SimCall) : List WString :=
  calls.filterMap (slotOf "AT+CMGR=".toList)

def deletions (calls : List SimCall) : List WString :=
  calls.filterMap (slotOf "AT+CMGD=".toList)

/-- The driver and the slots of the requests still to be answered. -/
structure Session where
  dev : SmsWork
  outstanding : List WString

namespace Session

/-- What the driver does at a delivery. -/
def calls (s : Session) (d : Delivery) : List SimCall :=
  (workCalls s.dev d.waiting).filterMap ownCall

/-- A reply answers the first request, and new requests come last. -/
def next (s : Session) (d : Delivery) : Session where
  dev := workAll s.dev d.waiting
  outstanding :=
    (if d.arrival.isReply then s.outstanding.tail else s.outstanding) ++ requests (s.calls d)

/-- A reply only comes when a request is to be answered. -/
def Orderly : Session → List Delivery → Prop
  | _, [] => True
  | s, d :: ds => (d.arrival.isReply = true → s.outstanding ≠ []) ∧ Orderly (s.next d) ds

/-- A reply is followed by a deletion, and what is deleted is the message that
was asked for. -/
def Settles (s : Session) (d : Delivery) : Prop :=
  (d.arrival.isReply = true → deletions (s.calls d) ≠ []) ∧
    ∀ n ∈ deletions (s.calls d), d.arrival.isReply = true ∧ s.outstanding.head? = some n

theorem orderly_append (s : Session) (ds es : List Delivery) :
    Orderly s (ds ++ es) ↔ Orderly s ds ∧ Orderly (run next s ds) es := by
  induction ds generalizing s with
  | nil => simp [Orderly]
  | cons d ds ih => simp only [List.cons_append, Orderly, run_cons, ih, and_assoc]

end Session

/-! ### One delivery -/

theorem takeWhile_cr {slot : WString} (h : '\r' ∉ slot) (t : WString) :
    (slot ++ '\r' :: t).takeWhile (fun c => decide (c ≠ '\r')) = slot := by
  have hall : ∀ c ∈ slot, decide (c ≠ '\r') = true := by
    intro c hc
    exact decide_eq_true (fun he => h (he ▸ hc))
  rw [List.takeWhile_append_of_pos hall, List.takeWhile_cons_of_neg (by simp), List.append_nil]

theorem slotIn_append (tag : WString) {slot : WString} (h : '\r' ∉ slot) (t : WString) :
    slotIn tag (tag ++ (slot ++ '\r' :: t)) = some slot := by
  rw [slotIn, if_pos (List.prefix_append ..), List.drop_left, takeWhile_cr h]

/-- A request is no deletion. -/
theorem slotIn_request (t : WString) :
    slotIn "AT+CMGD=".toList ("AT+CMGR=".toList ++ t) = none := by
  have hpre : ¬ "AT+CMGD=".toList <+: "AT+CMGR=".toList ++ t := by
    intro h
    have he := List.prefix_of_prefix_length_le h (List.prefix_append ..) (by decide)
    revert he
    decide
  rw [slotIn, if_neg hpre]

/-- One request, and nothing else. -/
theorem requests_write {slot : WString} (h : '\r' ∉ slot) (t : WString) :
    requests [.write ("AT+CMGR=".toList ++ (slot ++ '\r' :: t))] = [slot] := by
  have hslot : slotOf "AT+CMGR=".toList (.write ("AT+CMGR=".toList ++ (slot ++ '\r' :: t))) =
      some slot := slotIn_append _ h t
  rw [requests, List.filterMap_cons_some hslot, List.filterMap_nil]

theorem deletions_write (t : WString) :
    deletions [.write ("AT+CMGR=".toList ++ t)] = [] := by
  have hslot : slotOf "AT+CMGD=".toList (.write ("AT+CMGR=".toList ++ t)) = none := slotIn_request t
  rw [deletions, List.filterMap_cons_none hslot, List.filterMap_nil]

/-- The slot in the request a `+CMTI` line causes. -/
theorem lineCommand_slot {text : WString} (hnul : nul ∉ text) :
    ∃ t, lineCommand text = "AT+CMGR=".toList ++ (text.drop 12 ++ '\r' :: t) := by
  rw [lineCommand_of_noNul hnul, List.drop_append]
  cases 12 - text.length with
  | zero => exact ⟨"\r".toList, by simp⟩
  | succ n => exact ⟨[], by simp⟩

theorem requests_lineCalls (ismess : Bool) {text : WString} (hcr : '\r' ∉ text)
    (hnul : nul ∉ text) :
    requests (lineCalls ismess text) = if "+CMTI".toList <+: text then [text.drop 12] else [] := by
  have hdrop : '\r' ∉ text.drop 12 := fun hmem => hcr (List.mem_of_mem_drop hmem)
  have hmess : requests (if ismess then
      [SimCall.pt2Func text, .write "AT+CMGD=1\r".toList] else []) = [] := by
    split_ifs <;> rfl
  obtain ⟨t, ht⟩ := lineCommand_slot hnul
  rw [requests, lineCalls, List.filterMap_append, ← requests, ← requests, hmess, List.append_nil]
  split_ifs
  · rw [ht, requests_write hdrop]
  · rfl

theorem deletions_lineCalls (ismess : Bool) {text : WString} (hnul : nul ∉ text) :
    deletions (lineCalls ismess text) = if ismess then ["1".toList] else [] := by
  have hask : deletions (if "+CMTI".toList <+: text then
      [SimCall.write (lineCommand text)] else []) = [] := by
    obtain ⟨t, ht⟩ := lineCommand_slot hnul
    split_ifs
    · rw [ht, deletions_write]
    · rfl
  rw [deletions, lineCalls, List.filterMap_append, ← deletions, ← deletions, hask, List.nil_append]
  split_ifs
  · exact List.filterMap_cons_none rfl
  · rfl

namespace Session

/-- **One delivery**: the driver waits for the modem again, what it has asked
for can be read off the arrival, and it deletes slot `1`. -/
theorem next_of_ready {s : Session} (h : Ready s.dev) (d : Delivery) :
    Ready (s.next d).dev ∧ requests (s.calls d) = d.arrival.asks ∧
      (d.arrival.isReply = true → deletions (s.calls d) ≠ []) ∧
      ∀ n ∈ deletions (s.calls d), d.arrival.isReply = true ∧ n = "1".toList := by
  obtain ⟨arrival, waiting, hbytes⟩ := d
  obtain ⟨hrun, hcalls⟩ := work_receive s.dev waiting
  rw [hbytes] at hrun hcalls
  simp only [next, calls, hrun, hcalls]
  cases arrival with
  | notification mm idx =>
    obtain ⟨hafter, hask⟩ := receive_notification h mm idx
    rw [List.append_assoc] at hask
    rw [Arrival.bytes, hafter, hask, deletions_write]
    have hreq : requests [.write ("AT+CMGR=".toList ++ (idx.text ++ "\r\r".toList))] =
        [idx.text] := requests_write idx.noCr "\r".toList
    rw [hreq]
    exact ⟨ready_rest, rfl, fun hr => by simp [Arrival.isReply] at hr, fun n hn => by simp at hn⟩
  | reply hdr body =>
    obtain ⟨hafter, hreply⟩ := receive_reply h hdr.noCr body.noCr body.noNul
    have hreq : requests (lineCalls true body.text ++
        lineCalls (decide ("+CMGR".toList <+: body.text)) []) = Arrival.asks (.reply hdr body) := by
      rw [requests, List.filterMap_append, ← requests, ← requests,
        requests_lineCalls _ body.noCr body.noNul, requests_lineCalls _ (by simp) (by simp)]
      exact List.append_nil _
    have hdel : deletions (lineCalls true body.text ++
        lineCalls (decide ("+CMGR".toList <+: body.text)) []) =
          "1".toList :: if "+CMGR".toList <+: body.text then ["1".toList] else [] := by
      rw [deletions, List.filterMap_append, ← deletions, ← deletions,
        deletions_lineCalls _ body.noNul, deletions_lineCalls _ (by simp)]
      simp only [decide_eq_true_eq]
      rfl
    rw [Arrival.bytes, hafter, hreply, hreq, hdel]
    refine ⟨ready_rest, rfl, fun _ => List.cons_ne_nil _ _, fun n hn => ⟨rfl, ?_⟩⟩
    rcases List.mem_cons.mp hn with rfl | hn
    · rfl
    · split_ifs at hn
      · exact List.mem_singleton.mp hn
      · simp at hn

theorem ready_start {dev : SmsWork} (h : Ready dev) (ds : List Delivery) :
    Ready (run next ⟨dev, []⟩ ds).dev := by
  have keeps : ∀ (s : Session) d, Ready s.dev → Ready (s.next d).dev :=
    fun _ d hs => (next_of_ready hs d).1
  exact run_invariant keeps ds h

end Session

/-! ### A session -/

/-- The slots asked for. -/
def asked (ds : List Delivery) : List WString := ds.flatMap (fun d => d.arrival.asks)

/-- The number of replies. -/
def answered (ds : List Delivery) : Nat := ds.countP (fun d => d.arrival.isReply)

/-- **Which requests are still to be answered**, by induction from the end: a
reply takes the first one, and what a delivery asks for comes last. -/
theorem outstanding_eq {dev : SmsWork} (h : Ready dev) (ds : List Delivery)
    (hds : Session.Orderly ⟨dev, []⟩ ds) :
    answered ds ≤ (asked ds).length ∧
      (run Session.next ⟨dev, []⟩ ds).outstanding = (asked ds).drop (answered ds) := by
  induction ds using List.reverseRecOn with
  | nil => exact ⟨Nat.le_refl 0, rfl⟩
  | append_singleton ds d ih =>
    rw [Session.orderly_append] at hds
    obtain ⟨hle, hout⟩ := ih hds.1
    have hreply := hds.2.1
    obtain ⟨-, hreq, -⟩ := Session.next_of_ready (Session.ready_start h ds) d
    have hasked : asked (ds ++ [d]) = asked ds ++ d.arrival.asks := by
      rw [asked, List.flatMap_append, ← asked]
      simp
    rw [run_snoc, Session.next, hreq, hasked]
    cases hr : d.arrival.isReply with
    | true =>
      have hans : answered (ds ++ [d]) = answered ds + 1 := by simp [answered, hr]
      have hlt : answered ds < (asked ds).length := by
        rw [hout] at hreply
        by_contra hge
        exact hreply hr (List.drop_eq_nil_of_le (by omega))
      refine ⟨by rw [hans, List.length_append]; omega, ?_⟩
      simp only [if_pos, hout, List.tail_drop, hans]
      rw [List.drop_append_of_le_length (by omega)]
    | false =>
      have hans : answered (ds ++ [d]) = answered ds := by simp [answered, hr]
      refine ⟨by rw [hans, List.length_append]; omega, ?_⟩
      simp only [Bool.false_eq_true, if_false, hout, hans]
      rw [List.drop_append_of_le_length hle]

/-- **A session deletes the messages it has processed, and no others, if and
only if every request that is answered was for slot `1`.** -/
theorem settles_iff {dev : SmsWork} (h : Ready dev) {ds : List Delivery}
    (hds : Session.Orderly ⟨dev, []⟩ ds) :
    (∀ pre d post, ds = pre ++ d :: post →
      Session.Settles (run Session.next ⟨dev, []⟩ pre) d) ↔
    (∀ pre d post, ds = pre ++ d :: post → d.arrival.isReply = true →
      (asked pre)[answered pre]? = some "1".toList) := by
  refine forall_congr' fun pre => forall_congr' fun d => forall_congr' fun post =>
    forall_congr' fun hsplit => ?_
  rw [hsplit, Session.orderly_append] at hds
  obtain ⟨-, hout⟩ := outstanding_eq h pre hds.1
  obtain ⟨-, -, hsome, hone⟩ :=
    Session.next_of_ready (Session.ready_start h pre) d
  rw [Session.Settles, hout, List.head?_drop]
  constructor
  · intro hs hr
    obtain ⟨n, hn⟩ := List.exists_mem_of_ne_nil _ (hsome hr)
    rw [(hs.2 n hn).2, (hone n hn).2]
  · intro hs
    refine ⟨hsome, fun n hn => ?_⟩
    obtain ⟨hr, rfl⟩ := hone n hn
    exact ⟨hr, hs hr⟩

/-- A delivery at one byte per call of `Work`. -/
def deliver (arrival : Arrival) : Delivery where
  arrival := arrival
  waiting := bytewise arrival.bytes
  bytes := by
    rw [bytewise, List.filterMap_map]
    exact List.filterMap_some

/-- One message comes in the given slot and is asked for. -/
def oneMessage (idx : LineText) : List Delivery :=
  [deliver (.notification simMemory idx),
    deliver (.reply ⟨"1".toList, by decide, by decide⟩ ⟨"hi".toList, by decide, by decide⟩)]

theorem settles_iff_first_slot :
    (∀ pre d post, oneMessage ⟨"1".toList, by decide, by decide⟩ = pre ++ d :: post →
      Session.Settles (run Session.next ⟨rest, []⟩ pre) d) ↔
    (∀ pre d post, oneMessage ⟨"1".toList, by decide, by decide⟩ = pre ++ d :: post →
      d.arrival.isReply = true → (asked pre)[answered pre]? = some "1".toList) :=
  settles_iff ready_rest ⟨by decide, by decide, trivial⟩

/-- The message in slot `2` is processed, and the one in slot `1` deleted. -/
theorem deletes_unread :
    ¬ ∀ (dev : SmsWork) (ds : List Delivery), Ready dev → Session.Orderly ⟨dev, []⟩ ds →
      ∀ pre d post, ds = pre ++ d :: post →
        Session.Settles (run Session.next ⟨dev, []⟩ pre) d := by
  intro h
  have hsettles := h {} (oneMessage ⟨"2".toList, by decide, by decide⟩) (by decide)
    ⟨by decide, by decide, trivial⟩ [_] _ [] rfl
  have hslot := (hsettles.2 "1".toList (by decide)).2
  revert hslot
  decide

end Polivunator.SmsWork
