import OsConfig.Library.ShellWords.Literal

/-!
# Pipelines

A pipeline is cut into commands at the bars that are not quoted. What is between
two of them is read for itself.
-/

namespace ShellWords

/-- The last words of a command that a byte ends. -/
def Mode.atBar (mode : Mode) (byte : UInt8) : Option (List Word) :=
  match mode with
  | .unquoted word => if byte = 124 then some word.toList else none
  | _ => none

/-- The words of the commands that a text has from a place on, where words of the first have been
read already. -/
def commandsFrom (mode : Mode) (ended : List Word) (text : List UInt8) :
    Option (List (List Word)) :=
  match text with
  | [] => mode.finish.map fun later => [ended ++ later]
  | byte :: rest =>
      match mode.atBar byte with
      | some later =>
          (commandsFrom (.unquoted none) [] rest).map fun others => (ended ++ later) :: others
      | none =>
          match mode.step byte with
          | none => none
          | some (more, next) => commandsFrom next (ended ++ more) rest

/-- The texts of the words of each command of a text that is a pipeline of simple commands. -/
def pipeline (text : List UInt8) : Option (List (List (List UInt8))) :=
  match commandsFrom (.unquoted none) [] text with
  | none => none
  | some commands =>
      if commands.all fun words => !words.isEmpty && arePlain words then
        some (commands.map fun words => words.map Word.text)
      else
        none

section Cuts

variable {mode next : Mode} {ended more found : List Word} {front rest text : List UInt8}
  {byte : UInt8} {commands : List (List Word)}

/-- Where the reading goes on, no command ends. -/
theorem atBar_of_step (steps : mode.step byte = some (more, next)) : mode.atBar byte = none := by
  cases mode with
  | unquoted word =>
      refine if_neg ?_
      rintro rfl
      cases steps
  | escaped | single | double | doubleEscaped => rfl

theorem commandsFrom_of_run {last : Mode} (reads : mode.run front = some (more, last)) :
    commandsFrom mode ended (front ++ rest) = commandsFrom last (ended ++ more) rest := by
  induction front generalizing mode ended more with
  | nil =>
      obtain ⟨rfl, rfl⟩ := run_nil.mp reads
      simp
  | cons byte front ih =>
      obtain ⟨first, middle, others, steps, onward, rfl⟩ := run_cons.mp reads
      rw [List.cons_append, commandsFrom, atBar_of_step steps]
      simp only [steps]
      rw [ih onward, List.append_assoc]

theorem commandsFrom_of_words (reads : wordsFrom mode text = some found) :
    commandsFrom mode ended text = some [ended ++ found] := by
  obtain ⟨first, word, inside, rfl⟩ := exists_run_of_wordsFrom reads
  have onward : commandsFrom mode ended (text ++ []) =
      commandsFrom (.unquoted word) (ended ++ first) [] := commandsFrom_of_run inside
  rw [List.append_nil, commandsFrom] at onward
  rw [onward]
  simp [Mode.finish]

theorem commandsFrom_bar (reads : wordsFrom mode front = some found) (rest : List UInt8) :
    commandsFrom mode ended (front ++ 124 :: rest) =
      (commandsFrom (.unquoted none) [] rest).map fun others => (ended ++ found) :: others := by
  obtain ⟨first, word, inside, rfl⟩ := exists_run_of_wordsFrom reads
  rw [commandsFrom_of_run inside, commandsFrom]
  simp [Mode.atBar]

theorem cut_of_commandsFrom (reads : commandsFrom mode ended text = some commands) :
    (∃ found, wordsFrom mode text = some found ∧ commands = [ended ++ found]) ∨
      ∃ front rest found others, text = front ++ 124 :: rest ∧ wordsFrom mode front = some found ∧
        commandsFrom (.unquoted none) [] rest = some others ∧
        commands = (ended ++ found) :: others := by
  induction text generalizing mode ended with
  | nil =>
      left
      rw [commandsFrom, Option.map_eq_some_iff] at reads
      obtain ⟨later, finishes, rfl⟩ := reads
      exact ⟨later, by simp [wordsFrom, Mode.run, finishes], rfl⟩
  | cons byte text ih =>
      rw [commandsFrom] at reads
      cases bar : mode.atBar byte with
      | some later =>
          right
          simp only [bar, Option.map_eq_some_iff] at reads
          obtain ⟨others, onward, rfl⟩ := reads
          have parts : byte = 124 ∧ mode.finish = some later := by
            cases mode with
            | unquoted word =>
                rw [Mode.atBar] at bar
                split_ifs at bar with isBar
                exact ⟨isBar, bar⟩
            | escaped | single | double | doubleEscaped => cases bar
          obtain ⟨rfl, finishes⟩ := parts
          exact ⟨[], text, later, others, rfl, by simp [wordsFrom, Mode.run, finishes], onward, rfl⟩
      | none =>
          simp only [bar] at reads
          cases steps : mode.step byte with
          | none => simp [steps] at reads
          | some result =>
              obtain ⟨first, middle⟩ := result
              simp only [steps] at reads
              have step : ∀ rest : List UInt8, wordsFrom mode (byte :: rest) =
                  (wordsFrom middle rest).map fun later => first ++ later := by
                intro rest
                have one : mode.run [byte] = some (first, middle) := by
                  simp [Mode.run, steps]
                exact wordsFrom_append one
              rcases ih reads with ⟨found, words_eq, rfl⟩ |
                ⟨front, rest, found, others, rfl, words_eq, onward, rfl⟩
              · left
                refine ⟨first ++ found, ?_, by simp⟩
                rw [step, words_eq]
                rfl
              · right
                refine ⟨byte :: front, rest, first ++ found, others, rfl, ?_, onward, by simp⟩
                rw [step, words_eq]
                rfl

/-- A pipeline of two commands is cut at one bar. -/
theorem pipeline_pair_iff {first second : List (List UInt8)} :
    pipeline text = some [first, second] ↔
      ∃ front rest found found', text = front ++ 124 :: rest ∧
        (words front = some found ∧ found ≠ [] ∧ arePlain found = true ∧
          found.map Word.text = first) ∧
        (words rest = some found' ∧ found' ≠ [] ∧ arePlain found' = true ∧
          found'.map Word.text = second) := by
  constructor
  · intro reads
    unfold pipeline at reads
    split at reads
    · cases reads
    next commands commands_eq =>
      split_ifs at reads with plain
      rw [Option.some.injEq] at reads
      rcases cut_of_commandsFrom commands_eq with ⟨found, -, rfl⟩ |
        ⟨front, rest, found, others, rfl, words_eq, onward, rfl⟩
      · simp at reads
      · rcases cut_of_commandsFrom onward with ⟨found', words_eq', rfl⟩ |
          ⟨front', rest', found', others', rfl, words_eq', onward', rfl⟩
        · simp only [List.nil_append, List.map_cons, List.map_nil, List.cons.injEq,
            and_true] at reads
          simp only [List.nil_append, List.all_cons, List.all_nil, Bool.and_true, Bool.and_eq_true,
            Bool.not_eq_true', List.isEmpty_eq_false_iff] at plain
          exact ⟨front, rest, found, found', rfl, ⟨words_eq, plain.1.1, plain.1.2, reads.1⟩,
            words_eq', plain.2.1, plain.2.2, reads.2⟩
        · simp only [List.map_cons, List.cons.injEq, List.map_eq_nil_iff] at reads
          obtain ⟨-, -, rfl⟩ := reads
          rcases cut_of_commandsFrom onward' with ⟨found, -, nothing⟩ | ⟨_, _, _, _, _, _, _, nothing⟩
          · cases nothing
          · cases nothing
  · rintro ⟨front, rest, found, found', rfl, ⟨words_eq, nonempty, plain, rfl⟩, words_eq', nonempty',
      plain', rfl⟩
    have commands_eq : commandsFrom (.unquoted none) [] (front ++ 124 :: rest) =
        some [found, found'] := by
      rw [commandsFrom_bar words_eq, commandsFrom_of_words words_eq']
      rfl
    unfold pipeline
    simp only [commands_eq]
    rw [if_pos (by simp [nonempty, plain, nonempty', plain'])]
    rfl

end Cuts

end ShellWords
