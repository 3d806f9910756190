import Mathlib
import OsConfig.ComplianceEngine.Base64.RoundTrip

/-!
# Padding in base64

The encoding of RFC 4648 fills its last group with padding. The decoder reads
every encoding back. It looks at the padding of each group on its own, so it
does not see that a group with padding has to be the last one, and that nothing
but padding may follow padding.
-/

namespace OsConfig.ComplianceEngine.Base64

/-- No group starts with padding in its first two places. -/
def GroupsStart (input : ByteString) : Prop :=
  ∀ position, position % 4 < 2 → input[position]? ≠ some 61

theorem groupsStart_cons {first second third fourth : UInt8} {rest : ByteString} :
    GroupsStart (first :: second :: third :: fourth :: rest) ↔
      ¬ (first = 61 ∨ second = 61) ∧ GroupsStart rest := by
  constructor
  · intro starts
    refine ⟨?_, ?_⟩
    · rintro (padded | padded)
      · exact starts 0 (by decide) (by simp [padded])
      · exact starts 1 (by decide) (by simp [padded])
    · intro position early
      have later := starts (position + 4) (by omega)
      simpa using later
  · rintro ⟨heads, starts⟩ position early
    match position with
    | 0 => simpa using fun padded => heads (.inl padded)
    | 1 => simpa using fun padded => heads (.inr padded)
    | 2 => simp at early
    | 3 => simp at early
    | position + 4 => simpa using starts position (by omega)

/-- The groups can be decoded exactly if none starts with padding. -/
theorem decodeGroups_ok_iff {input : ByteString} (whole : input.length % 4 = 0) :
    (∃ output, decodeGroups input = .ok output) ↔ GroupsStart input := by
  induction input using decodeGroups.induct with
  | case1 first second third fourth rest ih =>
      have rest_whole : rest.length % 4 = 0 := by
        simp only [List.length_cons] at whole
        omega
      rw [groupsStart_cons, ← ih rest_whole, decodeGroups, decodeGroup]
      by_cases padded : first = 61 ∨ second = 61
      · simp [padded, bind, Except.bind]
      · simp only [if_neg padded]
        cases decodeGroups rest with
        | error failure => split_ifs <;> simp [bind, Except.bind]
        | ok others => split_ifs <;> simp [bind, Except.bind, pure, Except.pure, padded]
  | case2 input short =>
      have empty : input = [] := by
        rcases input with _ | ⟨first, _ | ⟨second, _ | ⟨third, _ | ⟨fourth, rest⟩⟩⟩⟩
        · rfl
        · simp at whole
        · simp at whole
        · simp at whole
        · exact absurd rfl (short first second third fourth rest)
      subst empty
      simp [decodeGroups, GroupsStart]

theorem base64Decode_ok_iff (input : ByteString) :
    (∃ output, base64Decode input = .ok output) ↔
      input.length % 4 = 0 ∧ (∀ byte ∈ input, isBase64 byte = true) ∧ GroupsStart input := by
  rw [base64Decode]
  by_cases whole : input.length % 4 = 0
  · by_cases characters : ∀ byte ∈ input, isBase64 byte = true
    · have all : input.all isBase64 = true := List.all_eq_true.mpr characters
      simp only [whole, ne_eq, not_true_eq_false, if_false, all, Bool.not_true, Bool.false_eq_true]
      rw [decodeGroups_ok_iff whole]
      exact ⟨fun starts => ⟨trivial, characters, starts⟩, fun accepted => accepted.2.2⟩
    · have some_other : input.all isBase64 = false := by
        rw [← Bool.not_eq_true, List.all_eq_true]
        exact characters
      simp [whole, some_other, characters]
  · simp [whole]

/-- Characters of the alphabet and at most two characters of padding behind them. -/
def WellFormed (input : ByteString) : Prop :=
  input.length % 4 = 0 ∧ ∃ body padding, input = body ++ List.replicate padding 61 ∧
    padding ≤ 2 ∧ ∀ byte ∈ body, isBase64 byte = true ∧ byte ≠ 61

/-- Something else than padding follows padding. -/
def PaddedInside (input : ByteString) : Prop :=
  ∃ front rest, input = front ++ 61 :: rest ∧ ∃ byte ∈ rest, byte ≠ 61

theorem WellFormed.groupsStart {input : ByteString} (wellFormed : WellFormed input) :
    GroupsStart input := by
  rcases wellFormed with ⟨whole, body, padding, rfl, few, characters⟩
  intro position early padded
  rw [List.length_append, List.length_replicate] at whole
  by_cases inside : position < body.length
  · rw [List.getElem?_append_left inside] at padded
    exact (characters 61 (List.mem_of_getElem? padded)).2 rfl
  · have bound := (List.getElem?_eq_some_iff.mp padded).1
    rw [List.length_append, List.length_replicate] at bound
    omega

theorem WellFormed.isBase64 {input : ByteString} (wellFormed : WellFormed input) :
    ∀ byte ∈ input, Base64.isBase64 byte = true := by
  rcases wellFormed with ⟨-, body, padding, rfl, -, characters⟩
  intro byte mem
  rcases List.mem_append.mp mem with inside | padded
  · exact (characters byte inside).1
  · rw [List.eq_of_mem_replicate padded]
    decide

theorem WellFormed.not_paddedInside {input : ByteString} (wellFormed : WellFormed input) :
    ¬ PaddedInside input := by
  rcases wellFormed with ⟨-, body, padding, rfl, -, characters⟩
  rintro ⟨front, rest, parts, byte, mem, other⟩
  rcases List.append_eq_append_iff.mp parts with ⟨between, -, ends⟩ | ⟨between, body_eq, ends⟩
  · apply other
    apply List.eq_of_mem_replicate
    rw [ends]
    simp [mem]
  · cases between with
    | nil =>
        rw [List.nil_append] at ends
        apply other
        apply List.eq_of_mem_replicate
        rw [← ends]
        simp [mem]
    | cons padded between =>
        rw [List.cons_append, List.cons.injEq] at ends
        exact (characters padded (by simp [body_eq])).2 ends.1.symm

/-- Where padding is followed by padding only, the groups keep it short. -/
theorem wellFormed_of_not_paddedInside {input : ByteString} (whole : input.length % 4 = 0)
    (characters : ∀ byte ∈ input, isBase64 byte = true) (starts : GroupsStart input)
    (atEnd : ¬ PaddedInside input) : WellFormed input := by
  have parts : input.takeWhile (· ≠ 61) ++ input.dropWhile (· ≠ 61) = input :=
    List.takeWhile_append_dropWhile
  have unpadded : ∀ byte ∈ input.takeWhile (· ≠ 61), byte ≠ 61 := by
    intro byte mem
    simpa using List.mem_takeWhile_imp mem
  have padded : ∀ byte ∈ input.dropWhile (· ≠ 61), byte = 61 := by
    intro byte mem
    cases behind : input.dropWhile (· ≠ 61) with
    | nil =>
        rw [behind] at mem
        cases mem
    | cons first rest =>
        have first_eq : first = 61 := by
          have stops := List.head?_dropWhile_not (· ≠ 61) input
          rw [behind] at stops
          simpa using stops
        subst first_eq
        rw [behind] at mem parts
        rcases List.mem_cons.mp mem with here | later
        · exact here
        · by_contra other
          exact atEnd ⟨_, rest, parts.symm, byte, later, other⟩
  have padding := List.eq_replicate_of_mem padded
  generalize (input.dropWhile (· ≠ 61)).length = count at padding
  rw [padding] at parts
  refine ⟨whole, _, count, parts.symm, ?_, ?_⟩
  · by_contra many
    generalize input.takeWhile (· ≠ 61) = body at parts
    subst parts
    rw [List.length_append, List.length_replicate] at whole
    apply starts (body.length + count - 3) (by omega)
    rw [List.getElem?_append_right (by omega), List.getElem?_replicate, if_pos (by omega)]
  · intro byte mem
    refine ⟨characters byte ?_, unpadded byte mem⟩
    rw [← parts]
    exact List.mem_append_left _ mem

/-- The decoder inverts the encoding, and it accepts exactly the well-formed texts except for
those in which something else follows the padding of a group that is decoded. -/
theorem base64Decode_iff_wellFormed (input : ByteString) :
    base64Decode (encode input) = .ok input ∧
      (((∃ output, base64Decode input = .ok output) ↔ WellFormed input) ↔
        ¬ (input.length % 4 = 0 ∧ (∀ byte ∈ input, isBase64 byte = true) ∧ GroupsStart input ∧
          PaddedInside input)) := by
  refine ⟨base64Decode_encode input, ?_⟩
  rw [base64Decode_ok_iff]
  constructor
  · rintro exactly ⟨whole, characters, starts, inside⟩
    exact (exactly.mp ⟨whole, characters, starts⟩).not_paddedInside inside
  · intro atEnd
    constructor
    · rintro ⟨whole, characters, starts⟩
      apply wellFormed_of_not_paddedInside whole characters starts
      exact fun inside => atEnd ⟨whole, characters, starts, inside⟩
    · intro wellFormed
      exact ⟨wellFormed.1, wellFormed.isBase64, wellFormed.groupsStart⟩

/-- Two encodings, one after the other, are decoded. -/
theorem base64Decode_concatenated :
    ¬ ((∃ output, base64Decode (bytes "QQ==QUJD") = .ok output) ↔
      WellFormed (bytes "QQ==QUJD")) := by
  intro exactly
  have wellFormed := exactly.mp ⟨bytes "AABC", by decide⟩
  apply wellFormed.not_paddedInside
  exact ⟨bytes "QQ", bytes "=QUJD", rfl, 81, by decide, by decide⟩

end OsConfig.ComplianceEngine.Base64
