import OsConfig.Common.Bytes
import OsConfig.Library.ShellWords

/-!
# Escaping for the shell

`EscapeForShell` puts a backslash in front of the four letters that keep a
meaning between double quotes. Between double quotes every byte of the text then
stands for itself. Outside of them it does not have to: blanks, operators, single
quotes and patterns are not escaped.
-/

namespace OsConfig.ComplianceEngine

open ByteString ShellWords

def escapeForShell (text : ByteString) : ByteString :=
  text.flatMap fun byte => if byte ∈ [92, 34, 96, 36] then [92, byte] else [byte]

section Escaping

variable {byte : UInt8}

theorem mem_escaped_iff : byte ∈ ([92, 34, 96, 36] : ByteString) ↔ isSpecial byte = true := by
  simp only [isSpecial, List.mem_cons, List.not_mem_nil, or_false, decide_eq_true_eq]
  tauto

theorem escapeForShell_special (special : isSpecial byte = true) (text : ByteString) :
    escapeForShell (byte :: text) = 92 :: byte :: escapeForShell text := by
  rw [escapeForShell, List.flatMap_cons, if_pos (mem_escaped_iff.mpr special)]
  rfl

theorem escapeForShell_plain (plain : isSpecial byte = false) (text : ByteString) :
    escapeForShell (byte :: text) = byte :: escapeForShell text := by
  have unescaped : byte ∉ ([92, 34, 96, 36] : ByteString) := by
    rw [mem_escaped_iff, plain]
    exact Bool.false_ne_true
  rw [escapeForShell, List.flatMap_cons, if_neg unescaped]
  rfl

theorem escapeForShell_append (text rest : ByteString) :
    escapeForShell (text ++ rest) = escapeForShell text ++ escapeForShell rest :=
  List.flatMap_append

end Escaping

section DoubleQuotes

variable {byte : UInt8} {word : Word}

theorem step_double_plain (plain : isSpecial byte = false) :
    (Mode.double word).step byte = some ([], .double (word ++ [⟨byte, true⟩])) := by
  simp only [isSpecial, List.mem_cons, List.not_mem_nil, or_false, decide_eq_false_iff_not,
    not_or] at plain
  simp [Mode.step, plain]

theorem step_double_backslash :
    (Mode.double word).step 92 = some ([], .doubleEscaped word) := rfl

theorem step_doubleEscaped_special (special : isSpecial byte = true) :
    (Mode.doubleEscaped word).step byte = some ([], .double (word ++ [⟨byte, true⟩])) := by
  have notNewline : byte ≠ 10 := by
    rintro rfl
    cases special
  simp [Mode.step, special, notNewline]

theorem run_double_escapeForShell (text : ByteString) (word : Word) :
    (Mode.double word).run (escapeForShell text) =
      some ([], .double (word ++ quotedWord text)) := by
  induction text generalizing word with
  | nil => simp [escapeForShell, Mode.run, quotedWord]
  | cons byte text ih =>
      cases special : isSpecial byte with
      | true =>
          rw [escapeForShell_special special, run_cons_of_step step_double_backslash,
            run_cons_of_step (step_doubleEscaped_special special), ih]
          simp [quotedWord]
      | false =>
          rw [escapeForShell_plain special, run_cons_of_step (step_double_plain special), ih]
          simp [quotedWord]

/-- The reading is between double quotes. -/
def InDoubleQuotes : Mode → Prop
  | .double _ => True
  | .doubleEscaped _ => True
  | _ => False

theorem run_double_of_prefix {text front : ByteString} (word : Word)
    (begins : front <+: escapeForShell text) :
    ∃ mode, (Mode.double word).run front = some ([], mode) ∧ InDoubleQuotes mode := by
  induction text generalizing word front with
  | nil =>
      rw [List.prefix_nil.mp begins]
      exact ⟨_, rfl, trivial⟩
  | cons byte text ih =>
      cases front with
      | nil => exact ⟨_, rfl, trivial⟩
      | cons first front =>
          cases special : isSpecial byte with
          | true =>
              rw [escapeForShell_special special, List.cons_prefix_cons] at begins
              obtain ⟨rfl, begins⟩ := begins
              rw [run_cons_of_step step_double_backslash]
              cases front with
              | nil => exact ⟨_, rfl, trivial⟩
              | cons second front =>
                  rw [List.cons_prefix_cons] at begins
                  obtain ⟨rfl, begins⟩ := begins
                  rw [run_cons_of_step (step_doubleEscaped_special special)]
                  exact ih _ begins
          | false =>
              rw [escapeForShell_plain special, List.cons_prefix_cons] at begins
              obtain ⟨rfl, begins⟩ := begins
              rw [run_cons_of_step (step_double_plain special)]
              exact ih _ begins

/-- Between double quotes an escaped text is one word, which is the text. No letter of it is
unquoted, and no part of it ends the quotes. -/
theorem words_quoted_escapeForShell (text : ByteString) :
    (∃ word : Word, words (34 :: (escapeForShell text ++ [34])) = some [word] ∧
        word.text = text ∧ ∀ letter ∈ word, letter.quoted = true) ∧
      ∀ front, front <+: escapeForShell text →
        ∃ mode, (Mode.double []).run front = some ([], mode) ∧ InDoubleQuotes mode := by
  constructor
  · refine ⟨quotedWord text, ?_, text_quotedWord text, by simp [quotedWord]⟩
    have opens : (Mode.unquoted none).run [34] = some ([], .double []) := rfl
    have inside := run_double_escapeForShell text []
    rw [List.nil_append] at inside
    rw [words, ← List.singleton_append, wordsFrom_append opens, wordsFrom_append inside]
    rfl
  · intro front begins
    exact run_double_of_prefix [] begins

end DoubleQuotes

end OsConfig.ComplianceEngine
