import OsConfig.Common.Columns
import OsConfig.Common.FileUtils.EtcConf

/-!
# Looking up a key

The lookup takes the first place where the name of the option occurs and is not
commented out, and reads the word behind the next separator, on whatever line
that is. A name that is part of another key or of a value is such a place too, so
what is read need not belong to the line that has the name as its key.
-/

namespace OsConfig.CommonUtils

section Purpose

variable (separator comment : UInt8) (option : ByteString)

def trimmed (text : ByteString) : ByteString :=
  removeTrailingBlanks (removePrefixBlanks text)

/-- Whether a line is not commented out and has a separator with the name of the option in front. -/
def hasKey (line : ByteString) : Bool :=
  let line := removePrefixBlanks line
  line.head? ≠ some comment && separator ∈ line && trimmed (truncateAtFirst separator line) = option

/-- What is behind the separator, without a trailing comment. -/
def keyValue (line : ByteString) : ByteString :=
  let line := removePrefixBlanks line
  trimmed (truncateAtFirst comment (line.dropWhile (· ≠ separator)).tail)

/-- The value of the first line with the key. -/
def lookupKey (buffer : ByteString) : Option ByteString :=
  ((buffer.splitOn 10).find? (hasKey separator comment option)).map (keyValue separator comment)

/-- A place where the name occurs, with no comment mark in front of it on its line. -/
def MentionedAt (ahead behind : ByteString) : Prop :=
  option <+: behind ∧ comment ∉ lineBefore ahead ∧ behind.head? ≠ some comment

instance (ahead behind : ByteString) : Decidable (MentionedAt comment option ahead behind) :=
  inferInstanceAs (Decidable (_ ∧ _))

/-- The first such place. -/
structure FirstMention (buffer ahead behind : ByteString) : Prop where
  split : buffer = ahead ++ behind
  mentioned : MentionedAt comment option ahead behind
  first : ∀ front rest, buffer = front ++ rest → MentionedAt comment option front rest →
    ahead.length ≤ front.length

/-- The text that is seen from a place on: it goes on behind a comment only if there is another one
in front. -/
def seenFrom (ahead behind : ByteString) : ByteString :=
  if comment ∈ ahead then behind else truncateAtFirst comment behind

/-- What follows the next separators, or the text itself if there is none. -/
def behindSeparators (text : ByteString) : ByteString :=
  if separator ∈ text then (text.dropWhile (· ≠ separator)).dropWhile (· = separator) else text

/-- The word behind the next separators is the given one. -/
def ReadsWord (word text : ByteString) : Prop :=
  (∀ byte ∈ word, byte ≠ 32 ∧ byte ≠ 10) ∧
    ∃ rest, removePrefixBlanks (behindSeparators separator text) = word ++ rest ∧
      ∀ byte ∈ rest.head?, byte = 32 ∨ byte = 10

end Purpose

section Scan

variable {separator comment : UInt8} {option buffer ahead behind before found word : ByteString}

theorem stringOptionFrom_of_not_mentioned
    (nowhere : ∀ ahead behind, found = ahead ++ behind →
      ¬MentionedAt comment option (before ++ ahead) behind) :
    stringOptionFrom option separator comment before found = none := by
  induction found generalizing before with
  | nil =>
      have here := nowhere [] [] rfl
      rw [List.append_nil, MentionedAt] at here
      rw [stringOptionFrom.eq_def, if_neg here]
  | cons byte rest ih =>
      have here := nowhere [] (byte :: rest) rfl
      rw [List.append_nil, MentionedAt] at here
      rw [stringOptionFrom, if_neg here]
      apply ih
      intro ahead behind rest_eq
      simpa using nowhere (byte :: ahead) behind (by rw [rest_eq, List.cons_append])

theorem stringOptionFrom_of_first (found_eq : found = ahead ++ behind)
    (mentioned : MentionedAt comment option (before ++ ahead) behind)
    (first : ∀ front rest, found = front ++ rest → MentionedAt comment option (before ++ front) rest →
      ahead.length ≤ front.length) :
    stringOptionFrom option separator comment before found =
      some (optionValue separator (seenFrom comment (before ++ ahead) behind)) := by
  induction ahead generalizing before found with
  | nil =>
      rw [List.nil_append] at found_eq
      rw [List.append_nil] at mentioned ⊢
      rw [MentionedAt] at mentioned
      rw [found_eq, stringOptionFrom.eq_def, if_pos mentioned, seenFrom]
  | cons byte others ih =>
      have elsewhere : ¬MentionedAt comment option before found := by
        intro here
        have bound := first [] found rfl (by simpa using here)
        simp at bound
      rw [List.cons_append] at found_eq
      rw [List.append_cons] at mentioned ⊢
      rw [found_eq, MentionedAt] at elsewhere
      rw [found_eq, stringOptionFrom, if_neg elsewhere]
      apply ih rfl mentioned
      intro front rest rest_eq here
      have bound := first (byte :: front) rest (by rw [found_eq, rest_eq, List.cons_append])
        (by rw [List.append_cons]; exact here)
      simpa using bound

theorem getStringOption_of_firstMention (mention : FirstMention comment option buffer ahead behind) :
    getStringOptionFromBuffer buffer option separator comment =
      some (optionValue separator (seenFrom comment ahead behind)) :=
  stringOptionFrom_of_first mention.split mention.mentioned mention.first

theorem exists_firstMention (split : buffer = ahead ++ behind)
    (mentioned : MentionedAt comment option ahead behind) :
    ∃ ahead behind, FirstMention comment option buffer ahead behind := by
  induction length : ahead.length using Nat.strong_induction_on generalizing ahead behind with
  | _ length_eq ih =>
      by_cases first : ∀ front rest, buffer = front ++ rest →
          MentionedAt comment option front rest → ahead.length ≤ front.length
      · exact ⟨ahead, behind, split, mentioned, first⟩
      · simp only [not_forall, not_le] at first
        rcases first with ⟨front, rest, buffer_eq, earlier, shorter⟩
        exact ih front.length (length ▸ shorter) buffer_eq earlier rfl

theorem removePrefixUpTo_eq (text : ByteString) :
    removePrefix separator (removePrefixUpTo separator text) = behindSeparators separator text := by
  rw [removePrefixUpTo, behindSeparators, removePrefix]
  by_cases separated : separator ∈ text
  · rw [if_pos separated]
    by_cases long : 1 < text.length
    · rw [if_pos ⟨long, separated⟩]
    · -- A text of one character is the separator itself.
      have alone : text = [separator] := by
        rcases List.exists_cons_of_ne_nil (List.ne_nil_of_mem separated) with ⟨byte, rest, rfl⟩
        rw [List.length_cons] at long
        have nothing : rest = [] := List.length_eq_zero_iff.mp (by omega)
        subst nothing
        rw [List.mem_singleton.mp separated]
      simp [alone]
  · rw [if_neg separated, if_neg fun both => separated both.2, List.dropWhile_eq_self_iff]
    intro some_text first
    rw [decide_eq_true_eq] at first
    exact separated (first ▸ List.getElem_mem some_text)

theorem optionValue_eq_iff (text : ByteString) :
    optionValue separator text = word ↔ ReadsWord separator word text := by
  have word_eq : optionValue separator text = firstWord (behindSeparators separator text) := by
    rw [optionValue, removePrefixUpTo_eq, truncated_trimmed, firstWord]
  have letters : (∀ byte ∈ word, inWord byte = true) ↔ ∀ byte ∈ word, byte ≠ 32 ∧ byte ≠ 10 := by
    simp [inWord]
  have ends (rest : ByteString) : (∀ byte ∈ rest.head?, inWord byte = false) ↔
      ∀ byte ∈ rest.head?, byte = 32 ∨ byte = 10 := by
    refine forall_congr' fun byte => forall_congr' fun _ => ?_
    rw [← Bool.not_eq_true, inWord]
    simp [or_iff_not_imp_left]
  rw [word_eq, ReadsWord, ← letters]
  constructor
  · intro same
    have plain : ∀ byte ∈ word, inWord byte = true := by
      rw [← same, firstWord, truncated_eq]
      exact fun _ mem => List.mem_takeWhile_imp mem
    obtain ⟨rest, text_eq, stops⟩ := (firstWord_eq_iff plain).mp same
    exact ⟨plain, rest, text_eq, (ends rest).mp stops⟩
  · rintro ⟨plain, rest, text_eq, stops⟩
    exact (firstWord_eq_iff plain).mpr ⟨rest, text_eq, (ends rest).mpr stops⟩

end Scan

section Lookup

variable {separator comment : UInt8} {option buffer line : ByteString}

/-- A line starts the text, or stands behind a newline. -/
theorem exists_of_mem_splitOn {text : ByteString} (mem : line ∈ text.splitOn 10) :
    ∃ front rest, text = front ++ (line ++ rest) ∧ lineBefore front = [] := by
  induction text using Words.induction_on_separators (fun byte : UInt8 => decide (byte = 10)) with
  | run text unbroken =>
      have plain : 10 ∉ text := fun inside => by simpa using unbroken 10 inside
      rw [List.splitOn_eq_singleton plain, List.mem_singleton] at mem
      exact ⟨[], [], by simp [mem], rfl⟩
  | separated first newline others unbroken separates ih =>
      have plain : 10 ∉ first := fun inside => by simpa using unbroken 10 inside
      rw [decide_eq_true_iff] at separates
      subst separates
      rw [List.splitOn_append_cons_self_of_not_mem plain] at mem
      rcases List.mem_cons.mp mem with rfl | later
      · exact ⟨[], 10 :: others, rfl, rfl⟩
      · rcases ih later with ⟨front, rest, rfl, starts⟩
        refine ⟨first ++ 10 :: front, rest, by simp, ?_⟩
        rcases List.eq_nil_or_concat front with rfl | ⟨earlier, last, rfl⟩
        · exact lineBefore_newline first
        · rw [List.concat_eq_append] at starts ⊢
          have last_eq : last = 10 := by
            by_contra differs
            have single : 10 ∉ [last] := by simpa using fun equal : 10 = last => differs equal.symm
            rw [lineBefore_append_of_plain _ single] at starts
            simp at starts
          rw [last_eq, ← List.cons_append, ← List.append_assoc, lineBefore_newline]

theorem exists_mention_of_hasKey (mark : comment ≠ 32) (mem : line ∈ buffer.splitOn 10)
    (isKey : hasKey separator comment option line = true) :
    ∃ ahead behind, buffer = ahead ++ behind ∧ MentionedAt comment option ahead behind := by
  rcases exists_of_mem_splitOn mem with ⟨front, rest, rfl, starts⟩
  simp only [hasKey, Bool.and_eq_true, decide_eq_true_eq] at isKey
  rcases isKey with ⟨⟨uncommented, separated⟩, named⟩
  have blanks_eq := List.takeWhile_append_dropWhile (p := fun byte : UInt8 => decide (byte = 32))
    (l := line)
  have blank : ∀ byte ∈ line.takeWhile (fun byte : UInt8 => decide (byte = 32)), byte = 32 := by
    intro byte inside
    simpa using List.mem_takeWhile_imp inside
  have body_eq : line.dropWhile (fun byte : UInt8 => decide (byte = 32)) = removePrefixBlanks line :=
    rfl
  rw [body_eq] at blanks_eq
  generalize line.takeWhile (fun byte : UInt8 => decide (byte = 32)) = blanks at *
  generalize body_gen : removePrefixBlanks line = body at *
  have some_body : body ≠ [] := List.ne_nil_of_mem separated
  refine ⟨front ++ blanks, body ++ rest, by rw [← blanks_eq]; simp, ?_, ?_, ?_⟩
  · -- The key has no blanks in front, so that it is where the line starts.
    have inside : option <+: body := by
      have black : removePrefixBlanks (truncateAtFirst separator body) =
          truncateAtFirst separator body := by
        have starts := List.head?_dropWhile_not (fun byte : UInt8 => decide (byte = 32)) line
        rw [body_eq] at starts
        rcases List.exists_cons_of_ne_nil some_body with ⟨first, others, rfl⟩
        rw [truncateAtFirst, List.takeWhile_cons, removePrefixBlanks, removePrefix]
        split
        · simpa using starts
        · rfl
      rw [← named, trimmed, black]
      exact (List.rdropWhile_prefix _ _).trans (List.takeWhile_prefix _)
    exact inside.trans (List.prefix_append _ _)
  · have plain : 10 ∉ blanks := fun inside => absurd (blank 10 inside) (by decide)
    rw [lineBefore_append_of_plain front plain, starts, List.nil_append]
    exact fun inside => mark (blank comment inside)
  · rwa [List.head?_append_of_ne_nil _ some_body]

/-- A key that is there is not reported missing. -/
theorem isSome_of_lookupKey (mark : comment ≠ 32)
    (there : (lookupKey separator comment option buffer).isSome = true) :
    (getStringOptionFromBuffer buffer option separator comment).isSome = true := by
  rw [lookupKey, Option.isSome_map, List.find?_isSome] at there
  rcases there with ⟨line, mem, isKey⟩
  rcases exists_mention_of_hasKey mark mem isKey with ⟨ahead, behind, split, mentioned⟩
  rcases exists_firstMention split mentioned with ⟨ahead, behind, mention⟩
  rw [getStringOption_of_firstMention mention]
  rfl

/-- The key stands behind a comment. -/
theorem isSome_of_lookupKey_deny :
    (getStringOptionFromBuffer (bytes "# deny\n deny = 3\n") (bytes "deny") 61 35).isSome = true :=
  isSome_of_lookupKey (by decide) (by decide +kernel)

/-- The lookup is by key exactly if the option is neither mentioned nor a key, or it is a key and the
value is read at the first place that mentions it. -/
theorem getStringOption_eq_lookupKey_iff :
    getStringOptionFromBuffer buffer option separator comment =
        lookupKey separator comment option buffer ↔
      (lookupKey separator comment option buffer = none ∧
          ∀ ahead behind, buffer = ahead ++ behind → ¬MentionedAt comment option ahead behind) ∨
        ∃ value ahead behind, lookupKey separator comment option buffer = some value ∧
          FirstMention comment option buffer ahead behind ∧
            ReadsWord separator value (seenFrom comment ahead behind) := by
  by_cases nowhere : ∀ ahead behind, buffer = ahead ++ behind →
      ¬MentionedAt comment option ahead behind
  · have nothing : getStringOptionFromBuffer buffer option separator comment = none :=
      stringOptionFrom_of_not_mentioned nowhere
    rw [nothing]
    constructor
    · exact fun absent => .inl ⟨absent.symm, nowhere⟩
    · rintro (⟨absent, -⟩ | ⟨value, ahead, behind, -, mention, -⟩)
      · exact absent.symm
      · exact absurd mention.mentioned (nowhere ahead behind mention.split)
  · simp only [not_forall, not_not] at nowhere
    rcases nowhere with ⟨ahead, behind, split, mentioned⟩
    rcases exists_firstMention split mentioned with ⟨ahead, behind, mention⟩
    rw [getStringOption_of_firstMention mention]
    constructor
    · intro found
      exact .inr ⟨_, ahead, behind, found.symm, mention, (optionValue_eq_iff _).mp rfl⟩
    · rintro (⟨-, nowhere⟩ | ⟨value, ahead', behind', found, mention', reads⟩)
      · exact absurd mention.mentioned (nowhere ahead behind mention.split)
      · rw [found, Option.some.injEq, optionValue_eq_iff]
        have lengths : ahead.length = ahead'.length :=
          Nat.le_antisymm (mention.first ahead' behind' mention'.split mention'.mentioned)
            (mention'.first ahead behind mention.split mention.mentioned)
        have same := List.append_inj (mention.split.symm.trans mention'.split) lengths
        rwa [same.1, same.2]

/-- The name of the first key is part of another key. -/
theorem longer_key_read :
    ¬∀ (buffer option : ByteString) (separator comment : UInt8),
      getStringOptionFromBuffer buffer option separator comment =
        lookupKey separator comment option buffer := by
  intro all
  have same := all (bytes "even_deny=1\ndeny=2\n") (bytes "deny") 61 35
  revert same
  decide +kernel

end Lookup

end OsConfig.CommonUtils
