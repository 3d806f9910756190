import OsConfig.Common.PassUtils.CreationRequirements

/-!
# Conforming files of password requirements

A file conforms if it assigns each option on an uncommented line, and nothing
but the required value. The audit looks at each line for itself, so it neither
misses an option that no line names nor passes over a comment that names one.
-/

namespace OsConfig.CommonUtils

section Assignments

def trimWhite (text : ByteString) : ByteString :=
  (text.dropWhile ByteString.isSpace).rdropWhile ByteString.isSpace

def assignedText (option line : ByteString) : Option ByteString :=
  let setting := truncateAtFirst 35 line
  let name := setting.takeWhile (· ≠ 61)
  if 61 ∈ setting ∧ trimWhite name = option then
    some (trimWhite (setting.drop (name.length + 1)))
  else none

/-- The number that a text is, with a sign or without. -/
def integerValue (text : ByteString) : Option ℤ :=
  let (negative, digits) := ByteString.readSign text
  if digits ≠ [] ∧ digits.all Numerals.isDecimal then
    let magnitude : ℤ := Numerals.value digits
    some (if negative then -magnitude else magnitude)
  else none

/-- Each option is assigned, and each assignment has the required value. -/
def ConformingConf (requirements : PasswordRequirements) (content : ByteString) : Prop :=
  ∀ entry ∈ requirements.pwQualityConfOptions,
    (∃ line ∈ content.splitOn 10, (assignedText entry.1 line).isSome = true) ∧
      ∀ line ∈ content.splitOn 10, ∀ text ∈ assignedText entry.1 line,
        integerValue text = some entry.2.toInt

instance (requirements : PasswordRequirements) (content : ByteString) :
    Decidable (ConformingConf requirements content) :=
  inferInstanceAs (Decidable (∀ _ ∈ _, _))

/-- A line that names an option is commented out, or the first option that it names is read from it
with another value than the required one. -/
def OffendingLine (requirements : PasswordRequirements) (line : ByteString) : Prop :=
  ∃ option, requirements.pwQualityConfOptions.find? (fun option => option.1 <:+: line) = some option ∧
    (line.head? = some 35 ∨ getIntegerOptionFromBuffer line option.1 61 35 ≠ option.2)

end Assignments

section Auditing

variable {fs : FileSystem} {requirements : PasswordRequirements} {content line : ByteString}

theorem meetsOption_eq_false_iff :
    meetsOption requirements line = false ↔ OffendingLine requirements line := by
  unfold meetsOption OffendingLine
  cases found : requirements.pwQualityConfOptions.find? fun option => option.1 <:+: line with
  | none => simp
  | some option =>
      simp only [Option.some.injEq, exists_eq_left', Bool.and_eq_false_iff, decide_eq_false_iff_not,
        not_not]
      rw [or_comm, ne_comm]

theorem checkRequirementsForPwQualityConf_eq_zero_iff
    (held : fs.read etcSecurityPwQualityConf = some content) (reason : Option ByteString) :
    (checkRequirementsForPwQualityConf requirements reason fs).1 = 0 ↔
      ∀ line ∈ fgetsLines content, ¬OffendingLine requirements line.cString := by
  simp only [checkRequirementsForPwQualityConf, held]
  rw [foldl_status_eq_zero_iff _ rfl rfl, List.forall_mem_map]
  simp only [← meetsOption_eq_false_iff, Bool.not_eq_false]

def sevenSettings : ByteString :=
  bytes "retry = 3\nminlen = 14\nminclass = 4\ndcredit = -1\nucredit = -1\nocredit = -1\nlcredit = -1\n"

example : ConformingConf defaultRequirements sevenSettings ∧
    OffendingLine defaultRequirements (bytes "# minlen = 14\n") := by
  rw [← meetsOption_eq_false_iff]
  decide +kernel

end Auditing

end OsConfig.CommonUtils
