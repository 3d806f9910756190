import OsConfig.Common.Bytes
import OsConfig.Library.Substrings

/-!
# Reasons

An audit explains its result in a text. The text of a success starts with
`PASS`. A text of the kind captured last is added to what is there; a text of the
other kind replaces it.
-/

namespace OsConfig.CommonUtils

def securityAuditPass : ByteString :=
  bytes "PASS"

/-- The reason of a success. -/
def passed (reason : ByteString) : Bool :=
  securityAuditPass <+: reason

/-- `tolower` in the C locale. -/
def toLower (byte : UInt8) : UInt8 :=
  if 65 ≤ byte && byte ≤ 90 then byte + 32 else byte

/-- `InternalOsConfigAddReason` -/
def addReason (reason text : ByteString) : ByteString :=
  reason ++ bytes ", also " ++ text.modifyHead toLower

/-- `OsConfigCaptureReason` -/
def captureReason (reason : Option ByteString) (text : ByteString) : Option ByteString :=
  match reason with
  | some earlier => if !passed earlier then some (addReason earlier text) else some text
  | none => some text

/-- `OsConfigCaptureSuccessReason` -/
def captureSuccessReason (reason : Option ByteString) (text : ByteString) : Option ByteString :=
  match reason with
  | some earlier =>
      if passed earlier then some (addReason earlier text) else some (securityAuditPass ++ text)
  | none => some (securityAuditPass ++ text)

/-- `OsConfigIsSuccessReason` -/
def isSuccessReason (reason : Option ByteString) : Bool :=
  match reason with
  | some reason => passed reason
  | none => true

theorem passed_captureSuccessReason (reason : Option ByteString) (text : ByteString) :
    ∃ captured, captureSuccessReason reason text = some captured ∧ passed captured = true := by
  have fresh : passed (securityAuditPass ++ text) = true :=
    decide_eq_true (List.prefix_append securityAuditPass text)
  cases reason with
  | none => exact ⟨_, rfl, fresh⟩
  | some earlier =>
      rw [captureSuccessReason]
      split
      next before =>
        refine ⟨_, rfl, decide_eq_true ?_⟩
        rw [addReason, List.append_assoc]
        exact (of_decide_eq_true before).trans (List.prefix_append _ _)
      · exact ⟨_, rfl, fresh⟩

/-- Text after the first four bytes does not matter. -/
theorem passed_append {reason : ByteString} (long : 4 ≤ reason.length) (rest : ByteString) :
    passed (reason ++ rest) = passed reason := by
  have length : securityAuditPass.length = 4 := rfl
  apply decide_eq_decide.mpr
  constructor
  · intro before
    exact List.prefix_of_prefix_length_le before (List.prefix_append _ _) (by omega)
  · intro before
    exact before.trans (List.prefix_append _ _)

@[simp]
theorem passed_addReason (earlier text : ByteString) :
    passed (addReason earlier text) = passed earlier := by
  rw [addReason, List.append_assoc]
  exact decide_eq_decide.mpr (Substrings.prefix_append_cons_iff earlier _ (by decide))

theorem any_passed_captureSuccessReason (reason : Option ByteString) (text : ByteString) :
    (captureSuccessReason reason text).any passed = true := by
  obtain ⟨captured, capture, before⟩ := passed_captureSuccessReason reason text
  rw [capture]
  exact before

/-- A failure takes the `PASS` of an earlier success away. -/
theorem any_passed_captureReason (reason : Option ByteString) {text : ByteString}
    (fails : passed text = false) : (captureReason reason text).any passed = false := by
  cases reason with
  | none => exact fails
  | some earlier =>
      rw [captureReason]
      split
      next failed =>
        rw [Option.any_some, passed_addReason]
        simpa using failed
      · exact fails

end OsConfig.CommonUtils
