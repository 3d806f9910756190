import OsConfig.Common.Bytes

/-!
# Rules of the audit daemon

A rule may exempt users below a uid, which is written into the option when the
rule is looked for. The numbers that stand there are replaced one after the
other. The replacement matches the pattern itself, so the search goes on behind
it.
-/

namespace OsConfig.ComplianceEngine.AuditdRules

/-- The option in front of a number. -/
def auidOption : ByteString := bytes "-F auid>="

/-- `\w` -/
def isWordByte (byte : UInt8) : Bool :=
  ByteString.isAlnum byte || byte = 95

/-- `\b` between two bytes, one of which may be missing. -/
def isWordBoundary (before behind : Option UInt8) : Bool :=
  before.any isWordByte != behind.any isWordByte

/-- The length of what `-F auid>=[0-9]+\b` matches at the start of a text. The longest run of
digits is tried first. -/
def matchAuid (text : ByteString) : Option ℕ :=
  if auidOption <+: text then
    let number := text.drop auidOption.length
    ((List.range (number.takeWhile ByteString.isDigit).length).reverse.find? fun last =>
      isWordBoundary number[last]? number[last + 1]?).map fun last =>
        auidOption.length + (last + 1)
  else none

/-- `regex_search`, the position and the length of the first match. -/
def searchAuid : ByteString → Option (ℕ × ℕ)
  | [] => none
  | byte :: rest =>
      match matchAuid (byte :: rest) with
      | some length => some (0, length)
      | none => (searchAuid rest).map fun (position, length) => (position + 1, length)

theorem matchAuid_bounds {text : ByteString} {length : ℕ} (found : matchAuid text = some length) :
    0 < length ∧ length ≤ text.length := by
  rw [matchAuid] at found
  split at found
  next starts =>
    rcases Option.map_eq_some_iff.mp found with ⟨last, last_found, rfl⟩
    have mem := List.mem_of_find?_eq_some last_found
    rw [List.mem_reverse, List.mem_range] at mem
    have fits := (List.takeWhile_prefix ByteString.isDigit
      (l := text.drop auidOption.length)).length_le
    have front := starts.length_le
    rw [List.length_drop] at fits
    omega
  · cases found

theorem searchAuid_bounds {text : ByteString} {position length : ℕ}
    (found : searchAuid text = some (position, length)) :
    0 < length ∧ position + length ≤ text.length := by
  induction text generalizing position length with
  | nil => cases found
  | cons byte rest ih =>
      rw [searchAuid] at found
      cases here : matchAuid (byte :: rest) with
      | some size =>
          rw [here] at found
          cases found
          simpa using matchAuid_bounds here
      | none =>
          rw [here] at found
          rcases Option.map_eq_some_iff.mp found with ⟨⟨before, size⟩, later, equal⟩
          rw [Prod.mk.injEq] at equal
          rw [← equal.1, ← equal.2]
          have bounds := ih later
          rw [List.length_cons]
          omega

/-- The loop of `ReplaceAuidPlaceholder`, with the number as it is printed. -/
def replaceFrom (number : ByteString) (offset : ℕ) (replaced : ByteString) : ByteString :=
  if offset < replaced.length then
    match _found : searchAuid (replaced.drop offset) with
    | none => replaced
    | some (position, length) =>
        let pos := position + offset
        replaceFrom number (pos + auidOption.length + number.length)
          (replaced.take pos ++ (auidOption ++ number) ++ replaced.drop (pos + length))
  else replaced
termination_by replaced.length - offset
decreasing_by
  have bounds := searchAuid_bounds _found
  rw [List.length_drop] at bounds
  simp only [List.length_append, List.length_take, List.length_drop]
  omega

def replaceAuidPlaceholder (option : ByteString) (uidMin : Int32) : ByteString :=
  replaceFrom (Numerals.renderInt 10 uidMin.toInt) 0 option

/-- A run of digits, and the text behind it, in which no word goes on. -/
structure IsNumber (digits behind : ByteString) : Prop where
  nonempty : digits ≠ []
  digit : ∀ byte ∈ digits, ByteString.isDigit byte = true
  ends : behind.head?.any isWordByte = false

/-- The text starts with the option and a number. -/
def Occurs (text : ByteString) : Prop :=
  ∃ digits behind, IsNumber digits behind ∧ text = auidOption ++ (digits ++ behind)

/-- Every number behind the option is replaced, and the rest of the text stays. -/
inductive Rewrites (number : ByteString) : ByteString → ByteString → Prop
  | nil : Rewrites number [] []
  | keep {byte : UInt8} {rest rest' : ByteString} (absent : ¬Occurs (byte :: rest))
      (others : Rewrites number rest rest') : Rewrites number (byte :: rest) (byte :: rest')
  | replace {digits behind behind' : ByteString} (isNumber : IsNumber digits behind)
      (others : Rewrites number behind behind') :
      Rewrites number (auidOption ++ (digits ++ behind)) (auidOption ++ (number ++ behind'))

section Matching

variable {text digits behind number : ByteString}

theorem isWordByte_of_isDigit {byte : UInt8} (digit : ByteString.isDigit byte = true) :
    isWordByte byte = true := by
  simp [isWordByte, ByteString.isAlnum, digit]

theorem auidOption_ne_nil : auidOption ≠ [] := by
  rw [auidOption, bytes_ofList]
  decide

/-- The option starts with its only dash. -/
theorem auidOption_eq : ∃ rest, auidOption = 45 :: rest ∧ 45 ∉ rest := by
  refine ⟨bytes "F auid>=", ?_, ?_⟩
  · rw [auidOption]
    repeat rw [bytes_ofList]
    decide
  · rw [bytes_ofList]
    decide

theorem IsNumber.takeWhile (isNumber : IsNumber digits behind) :
    (digits ++ behind).takeWhile ByteString.isDigit = digits := by
  rw [List.takeWhile_append_of_pos isNumber.digit]
  cases behind with
  | nil => simp
  | cons byte rest =>
      have stops : ByteString.isDigit byte = false := by
        cases digit : ByteString.isDigit byte with
        | false => rfl
        | true =>
            have ends := isNumber.ends
            rw [List.head?_cons, Option.any_some, isWordByte_of_isDigit digit] at ends
            cases ends
      simp [stops]

/-- The pattern matches exactly an occurrence, and all of its digits. -/
theorem matchAuid_of_isNumber (isNumber : IsNumber digits behind) :
    matchAuid (auidOption ++ (digits ++ behind)) = some (auidOption.length + digits.length) := by
  rcases List.eq_nil_or_concat digits with rfl | ⟨front, last, rfl⟩
  · exact absurd rfl isNumber.nonempty
  · have word : isWordByte last = true :=
      isWordByte_of_isDigit (isNumber.digit last (by simp))
    have boundary : isWordBoundary (some last) behind.head? = true := by
      rw [isWordBoundary, isNumber.ends, Option.any_some, word]
      rfl
    simp only [matchAuid, if_pos (List.prefix_append _ _), List.drop_left]
    rw [isNumber.takeWhile]
    simp only [List.concat_eq_append, List.length_append, List.length_cons, List.length_nil,
      List.append_assoc, List.cons_append, List.nil_append]
    rw [Nat.zero_add, List.range_succ, List.reverse_append, List.reverse_singleton,
      List.singleton_append, List.find?_cons]
    have at_last : (front ++ last :: behind)[front.length]? = some last := by simp
    have at_behind : (front ++ last :: behind)[front.length + 1]? = behind.head? := by
      rw [List.getElem?_append_right (by omega)]
      simp [List.head?_eq_getElem?]
    rw [at_last, at_behind, boundary]
    rfl

theorem occurs_of_matchAuid {length : ℕ} (found : matchAuid text = some length) :
    ∃ digits behind, IsNumber digits behind ∧ text = auidOption ++ (digits ++ behind) ∧
      length = auidOption.length + digits.length := by
  rw [matchAuid] at found
  split at found
  next starts =>
    obtain ⟨number, rfl⟩ := starts
    rw [List.drop_left] at found
    rcases Option.map_eq_some_iff.mp found with ⟨last, last_found, rfl⟩
    have mem := List.mem_of_find?_eq_some last_found
    have boundary := List.find?_some last_found
    let run := number.takeWhile ByteString.isDigit
    let behind := number.dropWhile ByteString.isDigit
    have split : run ++ behind = number := List.takeWhile_append_dropWhile
    have digits : ∀ byte ∈ run, ByteString.isDigit byte = true := fun byte => List.mem_takeWhile_imp
    have inside : last < run.length := List.mem_range.mp (List.mem_reverse.mp mem)
    have word (index : ℕ) (inside : index < run.length) : number[index]?.any isWordByte = true := by
      rw [← split, List.getElem?_append_left inside, List.getElem?_eq_getElem inside,
        Option.any_some]
      exact isWordByte_of_isDigit (digits _ (List.getElem_mem inside))
    rw [isWordBoundary, word last inside] at boundary
    -- Between two digits of the run there is no boundary, so the run ends there.
    have whole : last + 1 = run.length := by
      by_contra more
      rw [word (last + 1) (by omega)] at boundary
      cases boundary
    refine ⟨run, behind, ⟨?_, digits, ?_⟩, by rw [split], by rw [whole]⟩
    · exact List.ne_nil_of_length_pos (by omega)
    · rw [whole, ← split, List.getElem?_append_right le_rfl, Nat.sub_self,
        ← List.head?_eq_getElem?] at boundary
      simpa using boundary
  · cases found

theorem matchAuid_eq_none_iff : matchAuid text = none ↔ ¬Occurs text := by
  constructor
  · rintro nothing ⟨digits, behind, isNumber, rfl⟩
    rw [matchAuid_of_isNumber isNumber] at nothing
    cases nothing
  · intro absent
    cases found : matchAuid text with
    | none => rfl
    | some length =>
        rcases occurs_of_matchAuid found with ⟨digits, behind, isNumber, text_eq, -⟩
        exact absurd ⟨digits, behind, isNumber, text_eq⟩ absent

end Matching

section Rewriting

variable {number text text' digits behind : ByteString}

theorem rewrites_self (nothing : searchAuid text = none) : Rewrites number text text := by
  induction text with
  | nil => exact .nil
  | cons byte rest ih =>
      rw [searchAuid] at nothing
      cases here : matchAuid (byte :: rest) with
      | some length => simp [here] at nothing
      | none =>
          rw [here] at nothing
          exact .keep (matchAuid_eq_none_iff.mp here) (ih (Option.map_eq_none_iff.mp nothing))

/-- What is found is an occurrence with none in front of it. -/
theorem exists_of_searchAuid (number : ByteString) {position length : ℕ}
    (found : searchAuid text = some (position, length)) :
    ∃ before digits behind, IsNumber digits behind ∧
      text = before ++ (auidOption ++ (digits ++ behind)) ∧ before.length = position ∧
      length = auidOption.length + digits.length ∧
      ∀ rewritten, Rewrites number (auidOption ++ (digits ++ behind)) rewritten →
        Rewrites number text (before ++ rewritten) := by
  induction text generalizing position length with
  | nil => cases found
  | cons byte rest ih =>
      rw [searchAuid] at found
      cases here : matchAuid (byte :: rest) with
      | some size =>
          rw [here] at found
          cases found
          rcases occurs_of_matchAuid here with ⟨digits, behind, isNumber, text_eq, size_eq⟩
          refine ⟨[], digits, behind, isNumber, text_eq, rfl, size_eq, ?_⟩
          intro rewritten rewrites
          rw [text_eq]
          exact rewrites
      | none =>
          rw [here] at found
          rcases Option.map_eq_some_iff.mp found with ⟨⟨before, size⟩, later, equal⟩
          rw [Prod.mk.injEq] at equal
          rcases ih later with ⟨front, digits, behind, isNumber, rest_eq, front_length, size_eq, keeps⟩
          refine ⟨byte :: front, digits, behind, isNumber, by rw [rest_eq, List.cons_append], ?_, ?_,
            ?_⟩
          · rw [List.length_cons, front_length]
            exact equal.1
          · rw [← equal.2, size_eq]
          · intro rewritten rewrites
            exact .keep (matchAuid_eq_none_iff.mp here) (keeps rewritten rewrites)

/-- The loop rewrites what is behind the offset. -/
theorem replaceFrom_rewrites (number done rest : ByteString) :
    ∃ rest', Rewrites number rest rest' ∧
      replaceFrom number done.length (done ++ rest) = done ++ rest' := by
  induction sized : rest.length using Nat.strong_induction_on generalizing done rest with
  | _ count ih =>
      rw [replaceFrom, List.drop_left]
      split
      next inside =>
        split
        next nothing => exact ⟨rest, rewrites_self nothing, rfl⟩
        next position length found =>
          rcases exists_of_searchAuid number found with
            ⟨before, digits, behind, isNumber, rfl, rfl, rfl, keeps⟩
          have shorter : behind.length < count := by
            have some_digits := List.length_pos_iff.mpr isNumber.nonempty
            rw [← sized]
            simp only [List.length_append]
            omega
          rcases ih behind.length shorter (done ++ (before ++ (auidOption ++ number))) behind rfl with
            ⟨behind', rewrites, outcome⟩
          refine ⟨before ++ (auidOption ++ (number ++ behind')), keeps _ (.replace isNumber rewrites), ?_⟩
          have front : (done ++ (before ++ (auidOption ++ (digits ++ behind)))).take
              (before.length + done.length) = done ++ before := by
            rw [← List.append_assoc, Nat.add_comm, ← List.length_append, List.take_left]
          have tail : (done ++ (before ++ (auidOption ++ (digits ++ behind)))).drop
              (before.length + done.length + (auidOption.length + digits.length)) = behind := by
            have whole : done ++ (before ++ (auidOption ++ (digits ++ behind))) =
                (done ++ before ++ auidOption ++ digits) ++ behind := by simp
            rw [whole, List.drop_left']
            simp only [List.length_append]
            omega
          have offset : before.length + done.length + auidOption.length + number.length =
              (done ++ (before ++ (auidOption ++ number))).length := by
            simp only [List.length_append]
            omega
          have text : done ++ before ++ (auidOption ++ number) ++ behind =
              done ++ (before ++ (auidOption ++ number)) ++ behind := by simp
          simp only [front, tail, offset, text, outcome]
          simp
      next outside =>
        have empty : rest = [] := by
          rw [List.length_append, not_lt] at outside
          exact List.length_eq_zero_iff.mp (by omega)
        rw [empty]
        exact ⟨[], .nil, rfl⟩

theorem IsNumber.unique {digits' behind' : ByteString} (isNumber : IsNumber digits behind)
    (isNumber' : IsNumber digits' behind') (same : digits ++ behind = digits' ++ behind') :
    digits = digits' ∧ behind = behind' := by
  have digits_eq : digits = digits' := by
    rw [← isNumber.takeWhile, same, isNumber'.takeWhile]
  rw [digits_eq] at same
  exact ⟨digits_eq, List.append_cancel_left same⟩

theorem Rewrites.unique {other : ByteString} (rewrites : Rewrites number text text')
    (rewrites' : Rewrites number text other) : text' = other := by
  induction rewrites generalizing other with
  | nil =>
      generalize nothing : ([] : ByteString) = given at rewrites'
      cases rewrites' with
      | nil => rfl
      | keep => cases nothing
      | replace isNumber => exact absurd (List.append_eq_nil_iff.mp nothing.symm).1 auidOption_ne_nil
  | @keep byte rest rest' absent _ ih =>
      generalize given_eq : byte :: rest = given at rewrites'
      cases rewrites' with
      | nil => cases given_eq
      | keep _ others =>
          cases given_eq
          rw [ih others]
      | replace isNumber => exact absurd ⟨_, _, isNumber, given_eq⟩ absent
  | @replace digits behind behind' isNumber _ ih =>
      generalize given_eq : auidOption ++ (digits ++ behind) = given at rewrites'
      cases rewrites' with
      | nil => exact absurd (List.append_eq_nil_iff.mp given_eq).1 auidOption_ne_nil
      | keep absent => exact absurd ⟨_, _, isNumber, given_eq.symm⟩ absent
      | replace isNumber' others =>
          have parts := isNumber.unique isNumber' (List.append_cancel_left given_eq)
          rw [← parts.2] at others
          rw [ih others]

theorem Rewrites.head? (rewrites : Rewrites number text text') : text'.head? = text.head? := by
  cases rewrites with
  | nil => rfl
  | keep => rfl
  | replace =>
      rcases auidOption_eq with ⟨rest, option_eq, -⟩
      rw [option_eq]
      rfl

/-- What has no dash in it was there before. -/
theorem Rewrites.of_append {front rest' : ByteString} (plain : 45 ∉ front)
    (rewrites : Rewrites number text (front ++ rest')) :
    ∃ rest, text = front ++ rest ∧ Rewrites number rest rest' := by
  induction front generalizing text with
  | nil => exact ⟨text, rfl, rewrites⟩
  | cons byte front ih =>
      rw [List.mem_cons, not_or] at plain
      generalize given_eq : byte :: front ++ rest' = given at rewrites
      cases rewrites with
      | nil => cases given_eq
      | keep _ others =>
          cases given_eq
          rcases ih plain.2 others with ⟨rest, rfl, rewrites⟩
          exact ⟨rest, rfl, rewrites⟩
      | replace =>
          rcases auidOption_eq with ⟨tail, option_eq, -⟩
          rw [option_eq, List.cons_append, List.cons_append, List.cons.injEq] at given_eq
          exact absurd given_eq.1.symm plain.1

theorem isDigit_ne_dash {byte : UInt8} (digit : ByteString.isDigit byte = true) : byte ≠ 45 := by
  rintro rfl
  exact absurd digit (by decide)

theorem occurs_of_rewrites {byte : UInt8} {rest rest' : ByteString}
    (rewrites : Rewrites number rest rest') (occurs : Occurs (byte :: rest')) :
    Occurs (byte :: rest) := by
  rcases occurs with ⟨digits, behind', isNumber, equal⟩
  rcases auidOption_eq with ⟨tail, option_eq, plain⟩
  rw [option_eq, List.cons_append, List.cons.injEq, ← List.append_assoc] at equal
  have no_dash : 45 ∉ tail ++ digits := by
    rw [List.mem_append, not_or]
    exact ⟨plain, fun mem => isDigit_ne_dash (isNumber.digit _ mem) rfl⟩
  rw [equal.2] at rewrites
  rcases rewrites.of_append no_dash with ⟨behind, rest_eq, others⟩
  refine ⟨digits, behind, ⟨isNumber.nonempty, isNumber.digit, ?_⟩, ?_⟩
  · rw [← others.head?]
    exact isNumber.ends
  · rw [rest_eq, equal.1, option_eq, List.cons_append, List.append_assoc]

theorem Rewrites.again (isNumber : number ≠ [] ∧ ∀ byte ∈ number, ByteString.isDigit byte = true)
    (rewrites : Rewrites number text text') : Rewrites number text' text' := by
  induction rewrites with
  | nil => exact .nil
  | keep absent others ih =>
      exact .keep (fun occurs => absent (occurs_of_rewrites others occurs)) ih
  | replace old others ih =>
      refine .replace ⟨isNumber.1, isNumber.2, ?_⟩ ih
      rw [others.head?]
      exact old.ends

theorem isDigit_number {uidMin : Int32} (least : 0 ≤ uidMin.toInt) :
    Numerals.renderInt 10 uidMin.toInt ≠ [] ∧
      ∀ byte ∈ Numerals.renderInt 10 uidMin.toInt, ByteString.isDigit byte = true := by
  refine ⟨Numerals.renderInt_ne_nil _, ?_⟩
  rw [Numerals.renderInt, if_neg (by omega)]
  exact fun byte mem => Numerals.isDecimal_of_mem_render mem

theorem replaceAuidPlaceholder_rewrites (option : ByteString) (uidMin : Int32) :
    Rewrites (Numerals.renderInt 10 uidMin.toInt) option (replaceAuidPlaceholder option uidMin) := by
  rcases replaceFrom_rewrites (Numerals.renderInt 10 uidMin.toInt) [] option with
    ⟨option', rewrites, outcome⟩
  rw [List.length_nil, List.nil_append, List.nil_append] at outcome
  rw [replaceAuidPlaceholder, outcome]
  exact rewrites

/-- The placeholder is replaced in every place and nothing else is, and a second time nothing is
left to replace. -/
theorem replaceAuidPlaceholder_spec (option : ByteString) (uidMin : Int32)
    (least : 0 ≤ uidMin.toInt) :
    (∀ result, Rewrites (Numerals.renderInt 10 uidMin.toInt) option result ↔
        result = replaceAuidPlaceholder option uidMin) ∧
      replaceAuidPlaceholder (replaceAuidPlaceholder option uidMin) uidMin =
        replaceAuidPlaceholder option uidMin := by
  have rewrites := replaceAuidPlaceholder_rewrites option uidMin
  constructor
  · intro result
    constructor
    · exact fun other => other.unique rewrites
    · rintro rfl
      exact rewrites
  · exact (replaceAuidPlaceholder_rewrites _ uidMin).unique (rewrites.again (isDigit_number least))

theorem replaceAuidPlaceholder_spec_mount :
    (∀ result, Rewrites (Numerals.renderInt 10 (Int32.toInt 500))
        (bytes "-S mount -F auid>=1000 -F auid!=unset") result ↔
        result = replaceAuidPlaceholder (bytes "-S mount -F auid>=1000 -F auid!=unset") 500) ∧
      replaceAuidPlaceholder
          (replaceAuidPlaceholder (bytes "-S mount -F auid>=1000 -F auid!=unset") 500) 500 =
        replaceAuidPlaceholder (bytes "-S mount -F auid>=1000 -F auid!=unset") 500 :=
  replaceAuidPlaceholder_spec (bytes "-S mount -F auid>=1000 -F auid!=unset") 500 (by decide)

end Rewriting

end OsConfig.ComplianceEngine.AuditdRules
