import Mathlib

/-!
# Words of shell commands

How a POSIX shell takes a text apart into the words of one simple command. Each
letter of a word keeps whether it was quoted, because an unquoted letter may
still be part of a pattern. A text with an operator, a comment, an expansion or
an open quote in it is not taken apart: nothing is answered for it.

A dollar sign that is not quoted is taken for an expansion, as the standard
leaves open what it is where no parameter follows.
-/

namespace ShellWords

/-- A letter of a word, and whether it was quoted. -/
structure Letter where
  byte : UInt8
  quoted : Bool
  deriving DecidableEq

abbrev Word := List Letter

/-- The text of a word after quote removal. -/
def Word.text (word : Word) : List UInt8 :=
  word.map Letter.byte

def isBlank (byte : UInt8) : Bool :=
  byte = 32 || byte = 9

/-- Newlines and the letters that operators begin with. -/
def isOperator (byte : UInt8) : Bool :=
  byte ∈ ([10, 38, 40, 41, 59, 60, 62, 124] : List UInt8)

/-- The letters that a backslash keeps its meaning in front of between double quotes. -/
def isSpecial (byte : UInt8) : Bool :=
  byte ∈ ([34, 36, 92, 96] : List UInt8)

/-- Where the reading of a command is. Between two words there is no word. -/
inductive Mode where
  | unquoted (word : Option Word)
  | escaped (word : Option Word)
  | single (word : Word)
  | double (word : Word)
  | doubleEscaped (word : Word)
  deriving DecidableEq

namespace Mode

/-- A letter outside of quotes that does not separate words. -/
def outside (word : Option Word) (byte : UInt8) : Option Mode :=
  if isOperator byte || byte = 36 || byte = 96 then none
  else if byte = 92 then some (.escaped word)
  else if byte = 39 then some (.single (word.getD []))
  else if byte = 34 then some (.double (word.getD []))
  else if word.isNone && (byte = 35 || byte = 126) then none
  else some (.unquoted (some (word.getD [] ++ [⟨byte, false⟩])))

/-- Read a letter: the word that it ends, if any, and where the reading is then. -/
def step (mode : Mode) (byte : UInt8) : Option (List Word × Mode) :=
  match mode with
  | .unquoted word =>
      if isBlank byte then some (word.toList, .unquoted none)
      else (outside word byte).map fun next => ([], next)
  | .escaped word =>
      -- A newline behind a backslash is left out together with it.
      if byte = 10 then some ([], .unquoted word)
      else some ([], .unquoted (some (word.getD [] ++ [⟨byte, true⟩])))
  | .single word =>
      if byte = 39 then some ([], .unquoted (some word))
      else some ([], .single (word ++ [⟨byte, true⟩]))
  | .double word =>
      if byte = 34 then some ([], .unquoted (some word))
      else if byte = 36 || byte = 96 then none
      else if byte = 92 then some ([], .doubleEscaped word)
      else some ([], .double (word ++ [⟨byte, true⟩]))
  | .doubleEscaped word =>
      if byte = 10 then some ([], .double word)
      else if isSpecial byte then some ([], .double (word ++ [⟨byte, true⟩]))
      else some ([], .double (word ++ [⟨92, true⟩, ⟨byte, true⟩]))

/-- Read a text: the words that end in it, and where the reading is then. -/
def run (mode : Mode) : List UInt8 → Option (List Word × Mode)
  | [] => some ([], mode)
  | byte :: rest =>
      match mode.step byte with
      | none => none
      | some (ended, next) =>
          match run next rest with
          | none => none
          | some (later, last) => some (ended ++ later, last)

/-- The word that the end of the command ends. -/
def finish : Mode → Option (List Word)
  | .unquoted word => some word.toList
  | _ => none

end Mode

def wordsFrom (mode : Mode) (text : List UInt8) : Option (List Word) :=
  match mode.run text with
  | none => none
  | some (ended, last) => last.finish.map fun later => ended ++ later

def words (text : List UInt8) : Option (List Word) :=
  wordsFrom (.unquoted none) text

def quotedWord (text : List UInt8) : Word :=
  text.map fun byte => ⟨byte, true⟩

@[simp]
theorem text_append (word other : Word) : Word.text (word ++ other) = word.text ++ other.text :=
  List.map_append

@[simp]
theorem text_quotedWord (text : List UInt8) : (quotedWord text).text = text := by
  simp [quotedWord, Word.text, Function.comp_def]

section Reading

variable {mode next last : Mode} {ended later : List Word} {front rest : List UInt8}
  {byte : UInt8}

theorem run_cons_of_step (steps : mode.step byte = some ([], next)) :
    mode.run (byte :: rest) = next.run rest := by
  rw [Mode.run, steps]
  dsimp only
  cases next.run rest with
  | none => rfl
  | some result => rfl

theorem run_nil : mode.run [] = some (ended, last) ↔ [] = ended ∧ mode = last := by
  simp [Mode.run]

theorem run_cons : mode.run (byte :: rest) = some (ended, last) ↔
    ∃ first middle others, mode.step byte = some (first, middle) ∧
      middle.run rest = some (others, last) ∧ first ++ others = ended := by
  rw [Mode.run]
  constructor
  · intro reads
    cases steps : mode.step byte with
    | none => simp [steps] at reads
    | some result =>
        obtain ⟨first, middle⟩ := result
        simp only [steps] at reads
        cases onward : middle.run rest with
        | none => simp [onward] at reads
        | some result =>
            simp only [onward, Option.some.injEq, Prod.mk.injEq] at reads
            obtain ⟨rfl, rfl⟩ := reads
            exact ⟨first, middle, result.1, rfl, onward, rfl⟩
  · rintro ⟨first, middle, others, steps, onward, rfl⟩
    simp only [steps, onward]

theorem run_append (reads : mode.run front = some (ended, next)) :
    mode.run (front ++ rest) = (next.run rest).map fun (later, last) => (ended ++ later, last) := by
  induction front generalizing mode ended with
  | nil =>
      obtain ⟨rfl, rfl⟩ := run_nil.mp reads
      simp
  | cons byte front ih =>
      rw [List.cons_append, Mode.run]
      obtain ⟨first, middle, others, steps, onward, rfl⟩ := run_cons.mp reads
      simp only [steps]
      rw [ih onward]
      cases next.run rest with
      | none => rfl
      | some result => simp

theorem wordsFrom_append (reads : mode.run front = some (ended, next)) :
    wordsFrom mode (front ++ rest) = (wordsFrom next rest).map fun later => ended ++ later := by
  unfold wordsFrom
  rw [run_append reads]
  cases next.run rest with
  | none => rfl
  | some result =>
      obtain ⟨later, last⟩ := result
      dsimp only [Option.map_some]
      cases last.finish with
      | none => rfl
      | some final => simp

/-- A text is taken apart where its end is outside of quotes. -/
theorem exists_run_of_wordsFrom {found : List Word} (reads : wordsFrom mode front = some found) :
    ∃ ended word, mode.run front = some (ended, .unquoted word) ∧ found = ended ++ word.toList := by
  unfold wordsFrom at reads
  cases inside : mode.run front with
  | none => simp [inside] at reads
  | some result =>
      obtain ⟨ended, last⟩ := result
      simp only [inside, Option.map_eq_some_iff] at reads
      obtain ⟨final, finishes, rfl⟩ := reads
      cases last with
      | unquoted word =>
          simp only [Mode.finish, Option.some.injEq] at finishes
          exact ⟨ended, word, rfl, by rw [finishes]⟩
      | escaped | single | double | doubleEscaped => simp [Mode.finish] at finishes

/-- A blank ends the last word, and a command goes on behind it as at its beginning. -/
theorem wordsFrom_append_blank (reads : wordsFrom mode front = some ended)
    (blank : isBlank byte = true) :
    wordsFrom mode (front ++ byte :: rest) = (words rest).map fun later => ended ++ later := by
  obtain ⟨first, word, inFront, rfl⟩ := exists_run_of_wordsFrom reads
  have ends : (Mode.unquoted word).run [byte] = some (word.toList, .unquoted none) := by
    simp [Mode.run, Mode.step, blank]
  rw [wordsFrom_append inFront, ← List.singleton_append, wordsFrom_append ends, words]
  cases wordsFrom (.unquoted none) rest with
  | none => rfl
  | some others => simp

/-- The letters that have been read of a word. -/
def Mode.letters : Mode → Word
  | .unquoted word => word.getD []
  | .escaped word => word.getD []
  | .single word => word
  | .double word => word
  | .doubleEscaped word => word ++ [⟨92, true⟩]

theorem letters_of_outside {word : Option Word} (reads : Mode.outside word byte = some next) :
    ∀ letter ∈ next.letters, letter ∈ word.getD [] ∨ letter.byte = byte := by
  unfold Mode.outside at reads
  intro letter mem
  split_ifs at reads with refused backslash quote doubleQuote commented
  · cases reads
    exact .inl mem
  · cases reads
    exact .inl mem
  · cases reads
    exact .inl mem
  · cases reads
    simp only [Mode.letters, Option.getD_some, List.mem_append, List.mem_singleton] at mem
    rcases mem with earlier | rfl
    · exact .inl earlier
    · exact .inr rfl

theorem letters_of_step (steps : mode.step byte = some (ended, next)) :
    (∀ word ∈ ended, word = mode.letters) ∧
      ∀ letter ∈ next.letters, letter ∈ mode.letters ∨ letter.byte = byte := by
  cases mode with
  | unquoted word =>
      rw [Mode.step] at steps
      split_ifs at steps with blank
      · cases steps
        cases word <;> simp [Mode.letters]
      · rw [Option.map_eq_some_iff] at steps
        obtain ⟨target, outside, equal⟩ := steps
        cases equal
        exact ⟨by simp, letters_of_outside outside⟩
  | escaped word | single word | double word | doubleEscaped word =>
      rw [Mode.step] at steps
      split_ifs at steps
      all_goals
        cases steps
        simp only [Mode.letters]
        grind

theorem forall_byte_of_run {property : UInt8 → Prop} (text : ∀ byte ∈ front, property byte)
    (before : ∀ letter ∈ mode.letters, property letter.byte)
    (reads : mode.run front = some (ended, last)) :
    (∀ word ∈ ended, ∀ letter ∈ word, property letter.byte) ∧
      ∀ letter ∈ last.letters, property letter.byte := by
  induction front generalizing mode ended with
  | nil =>
      obtain ⟨rfl, rfl⟩ := run_nil.mp reads
      exact ⟨by simp, before⟩
  | cons byte front ih =>
      rw [List.forall_mem_cons] at text
      obtain ⟨first, middle, others, steps, onward, rfl⟩ := run_cons.mp reads
      obtain ⟨ends, adds⟩ := letters_of_step steps
      have onwards : ∀ letter ∈ middle.letters, property letter.byte := by
        intro letter mem
        rcases adds letter mem with earlier | here
        · exact before letter earlier
        · exact here ▸ text.1
      obtain ⟨later, final⟩ := ih text.2 onwards onward
      refine ⟨?_, final⟩
      intro word mem
      rcases List.mem_append.mp mem with here | there
      · exact ends word here ▸ before
      · exact later word there

theorem forall_byte_of_words {property : UInt8 → Prop} (text : ∀ byte ∈ front, property byte)
    (reads : words front = some ended) :
    ∀ word ∈ ended, ∀ byte ∈ word.text, property byte := by
  obtain ⟨first, last, inside, rfl⟩ := exists_run_of_wordsFrom reads
  obtain ⟨earlier, final⟩ := forall_byte_of_run text (by simp [Mode.letters]) inside
  intro word mem byte byte_mem
  obtain ⟨letter, letter_mem, rfl⟩ := List.mem_map.mp byte_mem
  rcases List.mem_append.mp mem with here | there
  · exact earlier word here letter letter_mem
  · refine final letter ?_
    rw [Option.mem_toList] at there
    rw [there]
    exact letter_mem

end Reading

section Patterns

/-- A bracket is closed behind these letters, with no slash in front of it. -/
def closesBracket : Word → Bool
  | [] => false
  | letter :: rest =>
      if letter.byte = 47 then false
      else if letter = ⟨93, false⟩ then true
      else closesBracket rest

/-- A bracket expression goes on like this. A bracket that comes first stands for itself. -/
def continuesBracket (word : Word) : Bool :=
  match (if word.head? = some ⟨33, false⟩ then word.tail else word) with
  | [] => false
  | first :: rest => first.byte ≠ 47 && closesBracket rest

/-- A word that is replaced by the names of files it matches. -/
def isPattern : Word → Bool
  | [] => false
  | letter :: rest =>
      letter = ⟨42, false⟩ || letter = ⟨63, false⟩ ||
        (letter = ⟨91, false⟩ && continuesBracket rest) || isPattern rest

theorem isPattern_append {front : Word}
    (plain : ∀ letter ∈ front, letter.byte ∉ ([42, 63, 91] : List UInt8)) (word : Word) :
    isPattern (front ++ word) = isPattern word := by
  induction front with
  | nil => rfl
  | cons letter rest ih =>
      rw [List.forall_mem_cons] at plain
      have notStar : letter ≠ ⟨42, false⟩ := fun same => plain.1 (by simp [same])
      have notMark : letter ≠ ⟨63, false⟩ := fun same => plain.1 (by simp [same])
      have notBracket : letter ≠ ⟨91, false⟩ := fun same => plain.1 (by simp [same])
      simp [isPattern, notStar, notMark, notBracket, ih plain.2]

end Patterns

section Commands

def reservedWords : List String :=
  ["!", "\x7b", "\x7d", "case", "do", "done", "elif", "else", "esac", "fi", "for", "if", "in",
    "then", "until", "while"]

def isReserved (word : Word) : Bool :=
  word.all (fun letter => !letter.quoted) &&
    reservedWords.any fun reserved =>
      reserved.toList.map (fun letter => UInt8.ofNat letter.toNat) = word.text

def isNameStart (byte : UInt8) : Bool :=
  byte = 95 || (65 ≤ byte && byte ≤ 90) || (97 ≤ byte && byte ≤ 122)

def isNameLetter (byte : UInt8) : Bool :=
  isNameStart byte || (48 ≤ byte && byte ≤ 57)

/-- A word that assigns a value to a variable where a command name may stand. -/
def isAssignment (word : Word) : Bool :=
  let name := word.takeWhile fun letter => letter ≠ ⟨61, false⟩
  word.length ≠ name.length && name.all (fun letter => !letter.quoted && isNameLetter letter.byte) &&
    name.head?.any fun letter => isNameStart letter.byte

/-- Words that are passed to a command as they are. -/
def arePlain (words : List Word) : Bool :=
  words.all (fun word => !isPattern word) &&
    !words.head?.any fun word => isReserved word || isAssignment word

theorem arePlain_append_cons {front rest : List Word} {word : Word}
    (ordinary : (isReserved word || isAssignment word) = false) :
    arePlain (front ++ word :: rest) =
      (arePlain front && (word :: rest).all fun word => !isPattern word) := by
  cases front with
  | nil => simp [arePlain, ordinary]
  | cons first front =>
      simp only [arePlain, List.cons_append, List.all_cons, List.all_append, List.head?_cons]
      grind

def simpleCommand (text : List UInt8) : Option (List (List UInt8)) :=
  match words text with
  | none => none
  | some words => if arePlain words then some (words.map Word.text) else none

theorem simpleCommand_eq_some_iff {text : List UInt8} {texts : List (List UInt8)} :
    simpleCommand text = some texts ↔
      ∃ found, words text = some found ∧ arePlain found = true ∧ found.map Word.text = texts := by
  unfold simpleCommand
  cases words text with
  | none => simp
  | some found => simp

end Commands

end ShellWords
