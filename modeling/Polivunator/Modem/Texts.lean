import Polivunator.Modem.Units

/-!
# What the text of a message can make the driver write

The body of a message closes a frame of its own, and `Work` looks for `+CMTI`
and `+CMGR` in that frame as it does in the modem's own lines.  So a body is
not only handed on: `written_reply` computes what a reply makes the driver
write, and two kinds of bodies show in it.  One that starts with `+CMTI` has
the text behind it copied into a request for a message, and after one that
starts with `+CMGR` the empty line is taken for a message too and a second
deletion is written.

`written_eq_iff` says nothing else of the body shows, and `text_drives_modem`
is a body that does.
-/

namespace Polivunator.SmsWork

open WString

/-- What the driver itself writes to the modem during some calls of `Work`. -/
def written (dev : SmsWork) (waiting : List (Option Char × Option Char)) : WString :=
  ((workCalls dev waiting).filterMap ownCall).flatMap SimCall.bytes

/-- What a reply with this body makes the driver write. -/
def replyCommands (body : WString) : WString :=
  (if "+CMTI".toList <+: body then lineCommand body else []) ++
    ("AT+CMGD=1\r".toList ++ if "+CMGR".toList <+: body then "AT+CMGD=1\r".toList else [])

theorem lineCalls_bytes (ismess : Bool) (text : WString) :
    (lineCalls ismess text).flatMap SimCall.bytes =
      (if "+CMTI".toList <+: text then lineCommand text else []) ++
        if ismess then "AT+CMGD=1\r".toList else [] := by
  unfold lineCalls
  rw [List.flatMap_append]
  congr 1
  · split_ifs
    · exact List.append_nil _
    · rfl
  · split_ifs <;> rfl

/-- **A reply, as bytes**, for an arbitrary body. -/
theorem written_reply {dev : SmsWork} (h : Ready dev) {hdr body : WString} (hhdr : '\r' ∉ hdr)
    (hcr : '\r' ∉ body) (hnul : nul ∉ body) {waiting : List (Option Char × Option Char)}
    (hbytes : waiting.filterMap Prod.fst = replyBytes hdr body) :
    written dev waiting = replyCommands body := by
  obtain ⟨-, hcalls⟩ := work_receive dev waiting
  obtain ⟨-, hreply⟩ := receive_reply h hhdr hcr hnul
  have hempty : ¬ "+CMTI".toList <+: ([] : WString) := by decide
  rw [written, hcalls, hbytes, hreply, List.flatMap_append, lineCalls_bytes, lineCalls_bytes,
    if_neg hempty, if_pos rfl, List.nil_append, List.append_assoc]
  unfold replyCommands
  by_cases hg : "+CMGR".toList <+: body
  · rw [if_pos hg, if_pos (decide_eq_true hg)]
  · rw [if_neg hg, decide_eq_false hg]
    rfl

/-! ### Reading the body back -/

theorem lineCommand_of_noNul {text : WString} (h : nul ∉ text) :
    lineCommand text = "AT+CMGR=".toList ++ ((text ++ ['\r']).drop 12 ++ "\r".toList) := by
  have hslot : nul ∉ (text ++ ['\r']).drop 12 := by
    intro hmem
    rcases List.mem_append.mp (List.mem_of_mem_drop hmem) with hm | hm
    · exact h hm
    · revert hm
      decide
  have hcmd : nul ∉ "AT+CMGR=".toList ++ (text ++ ['\r']).drop 12 ++ "\r".toList := by
    rw [List.mem_append, List.mem_append, not_or, not_or]
    exact ⟨⟨by decide, hslot⟩, by decide⟩
  unfold lineCommand
  rw [cStr_eq_self hslot, cStr_eq_self hcmd, List.append_assoc]

/-- The seventh byte tells a request from a deletion. -/
theorem replyCommands_seventh {body : WString} (h : nul ∉ body) :
    (replyCommands body)[6]? = if "+CMTI".toList <+: body then some 'R' else some 'D' := by
  unfold replyCommands
  split_ifs
  · rw [lineCommand_of_noNul h]
    rfl
  · rw [lineCommand_of_noNul h]
    rfl
  · rfl
  · rfl

/-- Two bodies the driver's tests do not tell apart. -/
structure SameCommands (b₁ b₂ : WString) : Prop where
  cmti : "+CMTI".toList <+: b₁ ↔ "+CMTI".toList <+: b₂
  cmgr : "+CMGR".toList <+: b₁ ↔ "+CMGR".toList <+: b₂
  slot : "+CMTI".toList <+: b₁ → (b₁ ++ ['\r']).drop 12 = (b₂ ++ ['\r']).drop 12

theorem replyCommands_of_cmti {body : WString} (hnul : nul ∉ body) (h : "+CMTI".toList <+: body) :
    replyCommands body =
      "AT+CMGR=".toList ++ ((body ++ ['\r']).drop 12 ++ "\r".toList) ++ "AT+CMGD=1\r".toList := by
  unfold replyCommands
  rw [if_pos h, if_neg (not_cmgr_of_cmti h), List.append_nil, lineCommand_of_noNul hnul]

theorem replyCommands_of_not_cmti {body : WString} (h : ¬ "+CMTI".toList <+: body) :
    replyCommands body =
      "AT+CMGD=1\r".toList ++ if "+CMGR".toList <+: body then "AT+CMGD=1\r".toList else [] := by
  unfold replyCommands
  rw [if_neg h, List.nil_append]

theorem replyCommands_eq_iff {b₁ b₂ : WString} (h₁ : nul ∉ b₁) (h₂ : nul ∉ b₂) :
    replyCommands b₁ = replyCommands b₂ ↔ SameCommands b₁ b₂ := by
  constructor
  · intro h
    have hcmti : "+CMTI".toList <+: b₁ ↔ "+CMTI".toList <+: b₂ := by
      have hseventh := congrArg (fun l : WString => l[6]?) h
      simp only [replyCommands_seventh h₁, replyCommands_seventh h₂] at hseventh
      split_ifs at hseventh with hb₁ hb₂ hb₂
      · exact iff_of_true hb₁ hb₂
      · simp at hseventh
      · simp at hseventh
      · exact iff_of_false hb₁ hb₂
    by_cases hb₁ : "+CMTI".toList <+: b₁
    · have hb₂ := hcmti.mp hb₁
      rw [replyCommands_of_cmti h₁ hb₁, replyCommands_of_cmti h₂ hb₂] at h
      have hslot := List.append_cancel_right (List.append_cancel_left (List.append_cancel_right h))
      exact ⟨hcmti, iff_of_false (not_cmgr_of_cmti hb₁) (not_cmgr_of_cmti hb₂), fun _ => hslot⟩
    · have hb₂ : ¬ "+CMTI".toList <+: b₂ := fun hb₂ => hb₁ (hcmti.mpr hb₂)
      rw [replyCommands_of_not_cmti hb₁, replyCommands_of_not_cmti hb₂] at h
      have hrest := List.append_cancel_left h
      refine ⟨hcmti, ?_, fun hb => absurd hb hb₁⟩
      split_ifs at hrest with hg₁ hg₂ hg₂
      · exact iff_of_true hg₁ hg₂
      · exact absurd hrest (by decide)
      · exact absurd hrest (by decide)
      · exact iff_of_false hg₁ hg₂
  · intro h
    by_cases hb₁ : "+CMTI".toList <+: b₁
    · rw [replyCommands_of_cmti h₁ hb₁, replyCommands_of_cmti h₂ (h.cmti.mp hb₁), h.slot hb₁]
    · rw [replyCommands_of_not_cmti hb₁, replyCommands_of_not_cmti (fun hb₂ => hb₁ (h.cmti.mpr hb₂))]
      simp only [h.cmgr]

/-! ### Two runs -/

/-- **Two bodies make the driver write the same bytes if and only if its tests
do not tell them apart.** -/
theorem written_eq_iff {dev : SmsWork} (h : Ready dev) {hdr b₁ b₂ : WString} (hhdr : '\r' ∉ hdr)
    (hcr₁ : '\r' ∉ b₁) (hnul₁ : nul ∉ b₁) (hcr₂ : '\r' ∉ b₂) (hnul₂ : nul ∉ b₂)
    {waiting₁ waiting₂ : List (Option Char × Option Char)}
    (hbytes₁ : waiting₁.filterMap Prod.fst = replyBytes hdr b₁)
    (hbytes₂ : waiting₂.filterMap Prod.fst = replyBytes hdr b₂) :
    written dev waiting₁ = written dev waiting₂ ↔ SameCommands b₁ b₂ := by
  rw [written_reply h hhdr hcr₁ hnul₁ hbytes₁, written_reply h hhdr hcr₂ hnul₂ hbytes₂]
  exact replyCommands_eq_iff hnul₁ hnul₂

/-- One byte from the modem per call of `Work`, and nothing else. -/
def bytewise (bytes : WString) : List (Option Char × Option Char) :=
  bytes.map (fun c => (some c, none))

/-- Two ordinary texts. -/
theorem written_eq_iff_ordinary :
    written rest (bytewise (replyBytes "1".toList "ON".toList)) =
        written rest (bytewise (replyBytes "1".toList "0 09:30".toList)) ↔
      SameCommands "ON".toList "0 09:30".toList :=
  written_eq_iff ready_rest (show '\r' ∉ "1".toList by decide) (by decide) (by decide) (by decide)
    (by decide) (by decide) (by decide)

/-- A text that asks the modem for the message in slot `5`. -/
theorem text_drives_modem :
    ¬ ∀ (dev : SmsWork) (hdr b₁ b₂ : WString), Ready dev → '\r' ∉ hdr → '\r' ∉ b₁ → nul ∉ b₁ →
      '\r' ∉ b₂ → nul ∉ b₂ →
      ∀ waiting₁ waiting₂ : List (Option Char × Option Char),
        waiting₁.filterMap Prod.fst = replyBytes hdr b₁ →
        waiting₂.filterMap Prod.fst = replyBytes hdr b₂ →
        written dev waiting₁ = written dev waiting₂ := by
  intro h
  have hsame := h {} "1".toList "+CMTI: \"SM\",5".toList "hi".toList (by decide) (by decide)
    (by decide) (by decide) (by decide) (by decide)
    (bytewise (replyBytes "1".toList "+CMTI: \"SM\",5".toList))
    (bytewise (replyBytes "1".toList "hi".toList)) (by decide) (by decide)
  revert hsame
  decide

end Polivunator.SmsWork
