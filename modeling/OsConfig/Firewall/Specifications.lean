import OsConfig.Firewall
import OsConfig.Library.ShellWords.Lossless

/-!
# Specifications of rules

A specification is put together from the fields of a rule, and a shell splits it
again. The words are the fields that the rule gives if the protocol is given, the
addresses are plain words and the ports are integers of the language: nothing is
quoted, a protocol that is not given leaves its flag alone, and a port loses its
high half.

For the converse the length of the specification is compared with that of the
words. A shell only takes letters away, and the signs in both are equally many.
-/

namespace OsConfig.Firewall

open CommandRunner (Json)
open ShellWords

section Expected

def integerValue : Json → Option ℤ
  | .integer value => some value.toInt
  | .unsigned value => some value.toNat
  | _ => none

def givenText (value : Json) (name : ByteString) : Option ByteString :=
  (value.find name).bind Json.getString

def givenInteger (value : Json) (name : ByteString) : Option ℤ :=
  (value.find name).bind integerValue

abbrev Pair := ByteString × ByteString

def givenPair (flag : ByteString) (given : Option ByteString) : List Pair :=
  given.toList.map fun text => (flag, text)

/-- The pairs of the fields a rule gives. -/
def expectedPairs (value : Json) : List Pair :=
  givenPair (bytes "-p") ((givenText value protocolName).filter (· != bytes "any")) ++
    givenPair (bytes "-s") (givenText value sourceName) ++
    givenPair (bytes "--source-port")
      ((givenInteger value sourcePortName).map (Numerals.renderInt 10)) ++
    givenPair (bytes "-d") (givenText value destinationName) ++
    givenPair (bytes "--destination-port")
      ((givenInteger value destinationPortName).map (Numerals.renderInt 10))

def pairWords (pairs : List Pair) : List ByteString :=
  pairs.flatMap fun pair => [pair.1, pair.2]

def specificationWords (chain target : ByteString) (pairs : List Pair) : List ByteString :=
  chain :: (pairWords pairs ++ [bytes "-j", target])

/-- A shell splits the specification of a rule into the chain, the pairs of the fields that the rule
gives, and the target. -/
def IsEncoded (value : Json) : Prop :=
  ∃ found pairs, words (IpTablesRule.parse value).specification.cString = some found ∧
    pairs.Perm (expectedPairs value) ∧
    found.map Word.text =
      specificationWords (chainName ((givenText value directionName).getD []))
        (targetName ((givenText value actionName).getD [])) pairs ∧
    ∀ word ∈ found, isPattern word = false

/-- A text that a shell and a C string leave alone. -/
def IsPlainText (text : ByteString) : Prop :=
  IsPlainWord text ∧ 0 ∉ text

instance (text : ByteString) : Decidable (IsPlainText text) :=
  inferInstanceAs (Decidable (_ ∧ _))

/-- The protocol is given, and what is given for the addresses and the ports can be passed on. -/
structure IsEncodable (value : Json) : Prop where
  protocol : givenText value protocolName ≠ none
  source : ∀ text ∈ givenText value sourceName, IsPlainText text
  destination : ∀ text ∈ givenText value destinationName, IsPlainText text
  sourcePort : ∀ number ∈ givenInteger value sourcePortName, -2 ^ 31 ≤ number ∧ number < 2 ^ 31
  destinationPort : ∀ number ∈ givenInteger value destinationPortName,
    -2 ^ 31 ≤ number ∧ number < 2 ^ 31

end Expected

section Given

variable {value : Json}

/-- What `get<int>()` keeps of an integer. -/
def narrowed (number : ℤ) : ℤ :=
  number.bmod (2 ^ 32)

theorem getInt_eq (member : Json) : member.getInt = (integerValue member).map narrowed := by
  cases member with
  | integer number =>
      simp only [Json.getInt, integerValue, narrowed, Option.map_some, BitVec.toInt_setWidth]
      rw [BitVec.toInt_eq_toNat_bmod, Int.bmod_bmod_of_dvd (by norm_num)]
  | unsigned number =>
      simp only [Json.getInt, integerValue, narrowed, Option.map_some, BitVec.toInt_setWidth]
  | _ => rfl

theorem narrowed_eq_iff {number : ℤ} :
    narrowed number = number ↔ -2 ^ 31 ≤ number ∧ number < 2 ^ 31 := by
  rw [narrowed]
  constructor
  · intro same
    rw [← same]
    exact ⟨Int.le_bmod (by norm_num), Int.bmod_lt (by norm_num)⟩
  · rintro ⟨lower, upper⟩
    exact Int.bmod_eq_of_le lower upper

/-- No port gets longer when it is narrowed, its sign apart. -/
theorem natAbs_narrowed_le (number : ℤ) : (narrowed number).natAbs ≤ number.natAbs := by
  have lower : -2 ^ 31 ≤ narrowed number := Int.le_bmod (by norm_num)
  have upper : narrowed number < 2 ^ 31 := Int.bmod_lt (by norm_num)
  by_cases inRange : -2 ^ 31 ≤ number ∧ number < 2 ^ 31
  · rw [narrowed_eq_iff.mpr inRange]
  · omega

theorem givenText_of_readField {name text : ByteString} {missing : Field} {field : Json → Field}
    (isText : ∀ member text, field member = .ok text → member.getString = some text)
    (read : readField value name missing field = .ok text) :
    givenText value name = some text ∨ givenText value name = none ∧ missing = .ok text := by
  rw [readField] at read
  rw [givenText]
  split at read
  next absent => exact .inr ⟨by rw [absent, Option.bind_none], read⟩
  next member found => exact .inl (by rw [found, Option.bind_some, isText member text read])

theorem getString_of_enumField {values : List ByteString} {invalid notString text : ByteString}
    {member : Json} (read : enumField values invalid notString member = .ok text) :
    member.getString = some text := by
  rw [enumField] at read
  split at read
  · cases read
  next given found =>
    split at read
    · cases read
      exact found
    · cases read

theorem getString_of_stringField {notString text : ByteString} {member : Json}
    (read : stringField notString member = .ok text) : member.getString = some text := by
  rw [stringField] at read
  split at read
  · cases read
  next given found =>
    cases read
    exact found

theorem givenInteger_of_readField {name text notInteger : ByteString}
    (read : readField value name noField (integerField notInteger) = .ok text) :
    text = ((givenInteger value name).map fun number =>
      Numerals.renderInt 10 (narrowed number)).getD [] := by
  rw [readField] at read
  rw [givenInteger]
  split at read
  next absent =>
    cases read
    rw [absent]
    rfl
  next member found =>
    rw [integerField, getInt_eq] at read
    rw [found, Option.bind_some]
    cases number : integerValue member with
    | none =>
        rw [number] at read
        cases read
    | some number' =>
        rw [number] at read
        cases read
        rfl

/-- The fields of a rule without an error are the given ones. -/
structure IsGiven (value : Json) (rule : IpTablesRule) : Prop where
  action : givenText value actionName = some rule.action
  direction : givenText value directionName = some rule.direction
  protocol : rule.protocol = (givenText value protocolName).getD []
  source : rule.sourceAddress = (givenText value sourceName).getD []
  destination : rule.destinationAddress = (givenText value destinationName).getD []
  sourcePort : rule.sourcePort = ((givenInteger value sourcePortName).map fun number =>
    Numerals.renderInt 10 (narrowed number)).getD []
  destinationPort : rule.destinationPort =
    ((givenInteger value destinationPortName).map fun number =>
      Numerals.renderInt 10 (narrowed number)).getD []

theorem isGiven_parse (noError : (IpTablesRule.parse value).parseError = []) :
    IsGiven value (IpTablesRule.parse value) := by
  obtain ⟨isObject, fields⟩ := fields_of_parse noError
  obtain ⟨action, action_eq⟩ := fields (actionField value) (by simp)
  obtain ⟨direction, direction_eq⟩ := fields (directionField value) (by simp)
  obtain ⟨protocol, protocol_eq⟩ := fields (protocolField value) (by simp)
  obtain ⟨source, source_eq⟩ := fields (sourceField value) (by simp)
  obtain ⟨destination, destination_eq⟩ := fields (destinationField value) (by simp)
  obtain ⟨sourcePort, sourcePort_eq⟩ := fields (sourcePortField value) (by simp)
  obtain ⟨destinationPort, destinationPort_eq⟩ := fields (destinationPortField value) (by simp)
  have required : ∀ {name text : ByteString} {field : Json → Field},
      (∀ member text, field member = .ok text → member.getString = some text) →
      readField value name (missingField name) field = .ok text →
      givenText value name = some text := by
    intro name text field isText read
    rcases givenText_of_readField isText read with given | ⟨-, missing⟩
    · exact given
    · cases missing
  have optional : ∀ {name text : ByteString} {field : Json → Field},
      (∀ member text, field member = .ok text → member.getString = some text) →
      readField value name noField field = .ok text → text = (givenText value name).getD [] := by
    intro name text field isText read
    rcases givenText_of_readField isText read with given | ⟨absent, missing⟩
    · rw [given, Option.getD_some]
    · cases missing
      rw [absent, Option.getD_none]
  rw [IpTablesRule.parse, if_pos isObject]
  simp only [action_eq, direction_eq, protocol_eq, source_eq, destination_eq, sourcePort_eq,
    destinationPort_eq, Field.value]
  exact {
    action := required (fun _ _ => getString_of_enumField) action_eq
    direction := required (fun _ _ => getString_of_enumField) direction_eq
    protocol := optional (fun _ _ => getString_of_enumField) protocol_eq
    source := optional (fun _ _ => getString_of_stringField) source_eq
    destination := optional (fun _ _ => getString_of_stringField) destination_eq
    sourcePort := givenInteger_of_readField sourcePort_eq
    destinationPort := givenInteger_of_readField destinationPort_eq }

end Given

section Written

/-- The pairs that are written for the fields a rule gives. -/
def writtenPairs (value : Json) : List Pair :=
  givenPair (bytes "-p") ((givenText value protocolName).filter (· != bytes "any")) ++
    givenPair (bytes "-s") ((givenText value sourceName).filter (· != [])) ++
    givenPair (bytes "--source-port") ((givenInteger value sourcePortName).map fun number =>
      Numerals.renderInt 10 (narrowed number)) ++
    givenPair (bytes "-d") ((givenText value destinationName).filter (· != [])) ++
    givenPair (bytes "--destination-port")
      ((givenInteger value destinationPortName).map fun number =>
        Numerals.renderInt 10 (narrowed number))

variable {value : Json} {rule : IpTablesRule}

/-- What is written of pairs. -/
def pairText (pairs : List Pair) : ByteString :=
  pairs.flatMap fun pair => pair.1 ++ bytes " " ++ pair.2 ++ bytes " "

theorem pairText_append (pairs others : List Pair) :
    pairText (pairs ++ others) = pairText pairs ++ pairText others :=
  List.flatMap_append

theorem intercalate_pairWords (pairs : List Pair) (target : ByteString) :
    List.intercalate [32] (pairWords pairs ++ [bytes "-j", target]) =
      pairText pairs ++ (bytes "-j " ++ target) := by
  induction pairs with
  | nil =>
      change List.intercalate [32] [bytes "-j", target] = bytes "-j " ++ target
      rw [List.intercalate_cons_cons, List.intercalate_singleton]
      rfl
  | cons pair pairs ih =>
      have rest : pairWords pairs ++ [bytes "-j", target] ≠ [] := by simp
      have split : pairWords (pair :: pairs) ++ [bytes "-j", target] =
          pair.1 :: pair.2 :: (pairWords pairs ++ [bytes "-j", target]) := rfl
      have text : pairText (pair :: pairs) =
          pair.1 ++ bytes " " ++ pair.2 ++ bytes " " ++ pairText pairs := rfl
      rw [split, text, List.intercalate_cons_cons,
        List.intercalate_cons_of_ne_nil rest, ih]
      simp only [List.append_assoc]
      rfl

theorem intercalate_specificationWords (chain target : ByteString) (pairs : List Pair) :
    List.intercalate [32] (specificationWords chain target pairs) =
      chain ++ bytes " " ++ (pairText pairs ++ (bytes "-j " ++ target)) := by
  have rest : pairWords pairs ++ [bytes "-j", target] ≠ [] := by simp
  rw [specificationWords, List.intercalate_cons_of_ne_nil rest, intercalate_pairWords]
  rfl

theorem pairText_givenPair_some (flag text : ByteString) :
    pairText (givenPair flag (some text)) = flag ++ bytes " " ++ text ++ bytes " " :=
  List.append_nil _

theorem flagText_address (flag : ByteString) (given : Option ByteString) :
    flagText flag (given.getD []) = pairText (givenPair flag (given.filter (· != []))) := by
  cases given with
  | none => rfl
  | some text =>
      rw [flagText, Option.getD_some]
      split
      next empty =>
        rw [empty]
        rfl
      next notEmpty =>
        rw [Option.filter_some_pos (by simpa using notEmpty), pairText_givenPair_some]

theorem flagText_port (flag : ByteString) (given : Option ℤ) :
    flagText flag ((given.map fun number => Numerals.renderInt 10 (narrowed number)).getD []) =
      pairText (givenPair flag (given.map fun number =>
        Numerals.renderInt 10 (narrowed number))) := by
  cases given with
  | none => rfl
  | some number =>
      rw [Option.map_some, Option.getD_some, flagText, if_neg (Numerals.renderInt_ne_nil _),
        pairText_givenPair_some]

theorem specification_eq (isGiven : IsGiven value rule)
    (protocol : givenText value protocolName ≠ none) :
    rule.specification = List.intercalate [32]
      (specificationWords (chainName rule.direction) (targetName rule.action)
        (writtenPairs value)) := by
  obtain ⟨text, given⟩ := Option.ne_none_iff_exists'.mp protocol
  have protocolText : (if rule.protocol ≠ bytes "any" then bytes "-p " ++ rule.protocol ++ bytes " "
      else []) = pairText (givenPair (bytes "-p")
        ((givenText value protocolName).filter (· != bytes "any"))) := by
    rw [isGiven.protocol, given, Option.getD_some]
    split
    next other =>
      rw [Option.filter_some_pos (by simpa using other), pairText_givenPair_some]
      rfl
    next any =>
      rw [not_not.mp any]
      rfl
  rw [intercalate_specificationWords, IpTablesRule.specification, IpTablesRule.body, protocolText,
    isGiven.source, isGiven.sourcePort, isGiven.destination, isGiven.destinationPort,
    flagText_address _ (givenText value sourceName),
    flagText_address _ (givenText value destinationName), flagText_port, flagText_port, writtenPairs]
  simp only [pairText_append]

end Written

section Sizes

/-- The letters of texts with a blank behind each. -/
def wordsSize (texts : List ByteString) : ℕ :=
  (texts.map fun text => text.length + 1).sum

def wordsSigns (texts : List ByteString) : ℕ :=
  (texts.map fun text => text.count 45).sum

theorem wordsSize_append (texts others : List ByteString) :
    wordsSize (texts ++ others) = wordsSize texts + wordsSize others := by
  simp [wordsSize]

theorem wordsSigns_append (texts others : List ByteString) :
    wordsSigns (texts ++ others) = wordsSigns texts + wordsSigns others := by
  simp [wordsSigns]

theorem pairWords_append (pairs others : List Pair) :
    pairWords (pairs ++ others) = pairWords pairs ++ pairWords others :=
  List.flatMap_append

/-- What is written is no longer than what is expected, but for signs that were not expected. -/
structure Near (slack : ℕ) (written expected : List Pair) : Prop where
  size : wordsSize (pairWords written) + wordsSigns (pairWords expected) ≤
    wordsSize (pairWords expected) + wordsSigns (pairWords written)
  signs : wordsSigns (pairWords written) ≤ wordsSigns (pairWords expected) + slack

theorem Near.append {slack slack' : ℕ} {written written' expected expected' : List Pair}
    (near : Near slack written expected) (near' : Near slack' written' expected') :
    Near (slack + slack') (written ++ written') (expected ++ expected') := by
  have sizes := near.size
  have sizes' := near'.size
  have signs := near.signs
  have signs' := near'.signs
  constructor
  · simp only [pairWords_append, wordsSize_append, wordsSigns_append]
    omega
  · simp only [pairWords_append, wordsSigns_append]
    omega

theorem near_refl (pairs : List Pair) : Near 0 pairs pairs :=
  ⟨le_rfl, le_rfl⟩

theorem near_address (flag : ByteString) (given : Option ByteString) :
    Near 0 (givenPair flag (given.filter (· != []))) (givenPair flag given) := by
  cases given with
  | none => exact near_refl _
  | some text =>
      by_cases empty : text = []
      · have signs : flag.count 45 ≤ flag.length := List.count_le_length
        have nothing : pairWords (givenPair flag ((some []).filter (· != []))) = [] := rfl
        have alone : pairWords (givenPair flag (some [])) = [flag, []] := rfl
        rw [empty]
        constructor
        · rw [nothing, alone]
          simp only [wordsSize, wordsSigns, List.map_cons, List.map_nil, List.sum_cons,
            List.sum_nil, List.count_nil, List.length_nil]
          omega
        · rw [nothing]
          exact Nat.zero_le _
      · rw [Option.filter_some_pos (by simpa using empty)]
        exact near_refl _

theorem near_port (flag : ByteString) (given : Option ℤ) :
    Near 1 (givenPair flag (given.map fun number => Numerals.renderInt 10 (narrowed number)))
      (givenPair flag (given.map (Numerals.renderInt 10))) := by
  cases given with
  | none => exact ⟨le_rfl, Nat.le_succ _⟩
  | some number =>
      have digits := Numerals.length_render_le (natAbs_narrowed_le number)
      have length := Numerals.length_renderInt number
      have length' := Numerals.length_renderInt (narrowed number)
      have sign : (Numerals.renderInt 10 (narrowed number)).count 45 ≤ 1 := by
        rw [Numerals.count_renderInt]
        split <;> omega
      constructor
      · simp only [wordsSize, wordsSigns, givenPair, pairWords, Option.map_some, Option.toList_some,
          List.map_cons, List.map_nil, List.flatMap_cons, List.flatMap_nil, List.append_nil,
          List.sum_cons, List.sum_nil]
        omega
      · simp only [wordsSigns, givenPair, pairWords, Option.map_some, Option.toList_some,
          List.map_cons, List.map_nil, List.flatMap_cons, List.flatMap_nil, List.append_nil,
          List.sum_cons, List.sum_nil]
        omega

theorem near_writtenPairs (value : Json) : Near 2 (writtenPairs value) (expectedPairs value) :=
  ((((near_refl _).append (near_address _ _)).append (near_port _ _)).append
    (near_address _ _)).append (near_port _ _)

/-- The order of the pairs does not matter. -/
theorem Near.perm {slack : ℕ} {written expected pairs : List Pair}
    (near : Near slack written expected) (perm : pairs.Perm expected) : Near slack written pairs := by
  have texts : (pairWords pairs).Perm (pairWords expected) := perm.flatMap_right _
  have sizes : wordsSize (pairWords pairs) = wordsSize (pairWords expected) :=
    (texts.map _).sum_eq
  have signs : wordsSigns (pairWords pairs) = wordsSigns (pairWords expected) :=
    (texts.map _).sum_eq
  exact ⟨by rw [sizes, signs]; exact near.size, by rw [signs]; exact near.signs⟩

end Sizes

section Plain

variable {value : Json}

/-- The flags of a specification. -/
def flags : List ByteString :=
  [bytes "-p", bytes "-s", bytes "--source-port", bytes "-d", bytes "--destination-port"]

theorem isPlainText_of_mem_flags {flag : ByteString} (mem : flag ∈ flags) : IsPlainText flag := by
  revert flag
  rw [flags]
  repeat rw [bytes_ofList]
  decide +kernel

theorem isPlainText_of_mem_protocols {protocol : ByteString} (mem : protocol ∈ protocols) :
    IsPlainText protocol := by
  revert protocol
  rw [protocols]
  repeat rw [bytes_ofList]
  decide +kernel

theorem isPlainText_chainName {direction : ByteString} (mem : direction ∈ directions) :
    IsPlainText (chainName direction) := by
  revert direction
  simp only [directions, chainName]
  repeat rw [bytes_ofList]
  decide +kernel

theorem isPlainText_targetName {action : ByteString} (mem : action ∈ actions) :
    IsPlainText (targetName action) := by
  revert action
  simp only [actions, targetName]
  repeat rw [bytes_ofList]
  decide +kernel

theorem isPlainText_renderInt (number : ℤ) : IsPlainText (Numerals.renderInt 10 number) := by
  have letters : ∀ byte ∈ Numerals.renderInt 10 number, byte = 45 ∨ 48 ≤ byte ∧ byte ≤ 57 := by
    intro byte mem
    have digit : byte ∈ Numerals.render 10 number.natAbs → 48 ≤ byte ∧ byte ≤ 57 := fun mem => by
      simpa [Numerals.isDecimal] using Numerals.isDecimal_of_mem_render mem
    rw [Numerals.renderInt] at mem
    split at mem
    · rcases List.mem_cons.mp mem with sign | mem
      · exact .inl sign
      · exact .inr (digit mem)
    · exact .inr (digit mem)
  have plain : ∀ byte : UInt8, byte = 45 ∨ 48 ≤ byte ∧ byte ≤ 57 →
      (byte ≠ 35 ∧ byte ≠ 126) ∧ isOrdinary byte = true ∧ byte ∉ ([42, 63, 91] : List UInt8) ∧
        byte ≠ 0 := by
    decide +kernel
  refine ⟨⟨⟨Numerals.renderInt_ne_nil number, ?_, ?_⟩, ?_⟩, ?_⟩
  · exact fun byte mem => (plain byte (letters byte (List.mem_of_mem_head? mem))).1
  · exact fun byte mem => (plain byte (letters byte mem)).2.1
  · exact isPattern_unquotedWord fun byte mem => (plain byte (letters byte mem)).2.2.1
  · exact fun mem => (plain 0 (letters 0 mem)).2.2.2 rfl

theorem mem_givenPair {flag : ByteString} {given : Option ByteString} {pair : Pair} :
    pair ∈ givenPair flag given ↔ pair.1 = flag ∧ given = some pair.2 := by
  obtain ⟨pairFlag, text⟩ := pair
  cases given with
  | none => simp [givenPair]
  | some given => simp [givenPair, eq_comm]

theorem mem_expectedPairs {pair : Pair} : pair ∈ expectedPairs value ↔
    pair.1 = bytes "-p" ∧ (givenText value protocolName).filter (· != bytes "any") = some pair.2 ∨
    pair.1 = bytes "-s" ∧ givenText value sourceName = some pair.2 ∨
    pair.1 = bytes "--source-port" ∧
      (givenInteger value sourcePortName).map (Numerals.renderInt 10) = some pair.2 ∨
    pair.1 = bytes "-d" ∧ givenText value destinationName = some pair.2 ∨
    pair.1 = bytes "--destination-port" ∧
      (givenInteger value destinationPortName).map (Numerals.renderInt 10) = some pair.2 := by
  simp only [expectedPairs, List.mem_append, mem_givenPair, or_assoc]

theorem mem_writtenPairs {pair : Pair} : pair ∈ writtenPairs value ↔
    pair.1 = bytes "-p" ∧ (givenText value protocolName).filter (· != bytes "any") = some pair.2 ∨
    pair.1 = bytes "-s" ∧ (givenText value sourceName).filter (· != []) = some pair.2 ∨
    pair.1 = bytes "--source-port" ∧ ((givenInteger value sourcePortName).map fun number =>
      Numerals.renderInt 10 (narrowed number)) = some pair.2 ∨
    pair.1 = bytes "-d" ∧ (givenText value destinationName).filter (· != []) = some pair.2 ∨
    pair.1 = bytes "--destination-port" ∧
      ((givenInteger value destinationPortName).map fun number =>
        Numerals.renderInt 10 (narrowed number)) = some pair.2 := by
  simp only [writtenPairs, List.mem_append, mem_givenPair, or_assoc]

theorem mem_pairWords {pairs : List Pair} {text : ByteString} :
    text ∈ pairWords pairs ↔ ∃ pair ∈ pairs, text = pair.1 ∨ text = pair.2 := by
  simp [pairWords]

theorem forall_writtenPairs {property : ByteString → Prop}
    (ofPlain : ∀ text, IsPlainText text → property text)
    (protocol : ∀ text ∈ givenText value protocolName, text ∈ protocols)
    (addresses : ∀ name ∈ [sourceName, destinationName], ∀ text ∈ givenText value name,
      text ≠ [] → property text) :
    ∀ text ∈ pairWords (writtenPairs value), property text := by
  have address : ∀ name ∈ [sourceName, destinationName], ∀ text,
      (givenText value name).filter (· != []) = some text → property text := by
    intro name mem text given
    rw [Option.filter_eq_some_iff] at given
    exact addresses name mem text given.1 (by simpa using given.2)
  have port : ∀ {name text}, ((givenInteger value name).map fun number =>
      Numerals.renderInt 10 (narrowed number)) = some text → property text := by
    intro name text given
    obtain ⟨number, -, rfl⟩ := Option.map_eq_some_iff.mp given
    exact ofPlain _ (isPlainText_renderInt _)
  intro text mem
  obtain ⟨⟨flag, written⟩, pair_mem, rfl | rfl⟩ := mem_pairWords.mp mem
  · refine ofPlain _ (isPlainText_of_mem_flags ?_)
    rcases mem_writtenPairs.mp pair_mem with ⟨rfl, -⟩ | ⟨rfl, -⟩ | ⟨rfl, -⟩ | ⟨rfl, -⟩ | ⟨rfl, -⟩
    all_goals simp [flags]
  · rcases mem_writtenPairs.mp pair_mem with ⟨-, given⟩ | ⟨-, given⟩ | ⟨-, given⟩ | ⟨-, given⟩ |
      ⟨-, given⟩
    · rw [Option.filter_eq_some_iff] at given
      exact ofPlain _ (isPlainText_of_mem_protocols (protocol _ given.1))
    · exact address sourceName (by simp) _ given
    · exact port given
    · exact address destinationName (by simp) _ given
    · exact port given

theorem forall_specificationWords {property : ByteString → Prop} {chain target : ByteString}
    {pairs : List Pair} (chainHolds : property chain) (flagHolds : property (bytes "-j"))
    (targetHolds : property target) (pairsHold : ∀ text ∈ pairWords pairs, property text) :
    ∀ text ∈ specificationWords chain target pairs, property text := by
  intro text mem
  rw [specificationWords, List.mem_cons, List.mem_append, List.mem_pair] at mem
  rcases mem with rfl | mem | rfl | rfl
  · exact chainHolds
  · exact pairsHold text mem
  · exact flagHolds
  · exact targetHolds

end Plain

section Encoding

variable {value : Json}

theorem mem_protocols_of_given (noError : (IpTablesRule.parse value).parseError = []) :
    ∀ text ∈ givenText value protocolName, text ∈ protocols := by
  intro text given
  obtain ⟨-, fields⟩ := fields_of_parse noError
  obtain ⟨protocol, read⟩ := fields (protocolField value) (by simp)
  obtain ⟨member, found, isText⟩ := Option.bind_eq_some_iff.mp given
  rw [protocolField, readField, found] at read
  simp only [enumField, isText] at read
  split at read
  next mem => exact mem
  · cases read

theorem nul_notMem_intercalate {texts : List ByteString} :
    0 ∉ List.intercalate [32] texts ↔ ∀ text ∈ texts, 0 ∉ text := by
  rw [← List.count_eq_zero, count_intercalate (by decide), List.sum_eq_zero_iff]
  simp only [List.mem_map, forall_exists_index, and_imp, forall_apply_eq_imp_iff₂,
    List.count_eq_zero]

theorem writtenPairs_eq_of_isEncodable (isEncodable : IsEncodable value) :
    writtenPairs value = expectedPairs value := by
  have address : ∀ {given : Option ByteString}, (∀ text ∈ given, IsPlainText text) →
      given.filter (· != []) = given := by
    intro given plain
    cases given with
    | none => rfl
    | some text => exact Option.filter_some_pos (by simpa using (plain text rfl).1.1.nonempty)
  have port : ∀ {given : Option ℤ}, (∀ number ∈ given, -2 ^ 31 ≤ number ∧ number < 2 ^ 31) →
      (given.map fun number => Numerals.renderInt 10 (narrowed number)) =
        given.map (Numerals.renderInt 10) := by
    intro given inRange
    refine Option.map_congr fun number mem => ?_
    rw [narrowed_eq_iff.mpr (inRange number mem)]
  rw [writtenPairs, expectedPairs, address isEncodable.source, address isEncodable.destination,
    port isEncodable.sourcePort, port isEncodable.destinationPort]

theorem isEncoded_of_isEncodable (noError : (IpTablesRule.parse value).parseError = [])
    (isEncodable : IsEncodable value) : IsEncoded value := by
  have isGiven := isGiven_parse noError
  have isValid := isValid_parse noError
  have plain : ∀ text ∈ specificationWords (chainName (IpTablesRule.parse value).direction)
      (targetName (IpTablesRule.parse value).action) (writtenPairs value), IsPlainText text := by
    refine forall_specificationWords (isPlainText_chainName isValid.direction) (by decide +kernel)
      (isPlainText_targetName isValid.action) ?_
    refine forall_writtenPairs (fun _ => id) (mem_protocols_of_given noError) ?_
    intro name mem text given _
    rcases List.mem_pair.mp mem with rfl | rfl
    · exact isEncodable.source text given
    · exact isEncodable.destination text given
  have nulFree := nul_notMem_intercalate.mpr fun text mem => (plain text mem).2
  have reads := words_intercalate fun text mem => (plain text mem).1.1
  rw [← specification_eq isGiven isEncodable.protocol] at nulFree reads
  rw [IsEncoded, ByteString.cString_of_not_mem nulFree]
  refine ⟨_, expectedPairs value, reads, List.Perm.refl _, ?_, ?_⟩
  · rw [map_text_unquotedWord, writtenPairs_eq_of_isEncodable isEncodable, isGiven.direction,
      isGiven.action, Option.getD_some, Option.getD_some]
  · intro word mem
    obtain ⟨text, text_mem, rfl⟩ := List.mem_map.mp mem
    exact (plain text text_mem).1.2

theorem protocol_of_isEncoded (noError : (IpTablesRule.parse value).parseError = [])
    (isEncoded : IsEncoded value) : givenText value protocolName ≠ none := by
  intro absent
  have isGiven := isGiven_parse noError
  have isValid := isValid_parse noError
  obtain ⟨found, pairs, reads, perm, same, -⟩ := isEncoded
  have protocol : (IpTablesRule.parse value).protocol = [] := by
    rw [isGiven.protocol, absent, Option.getD_none]
  have chain := isPlainText_chainName isValid.direction
  obtain ⟨rest, specification_eq⟩ : ∃ rest, (IpTablesRule.parse value).specification =
      chainName (IpTablesRule.parse value).direction ++ bytes " " ++ bytes "-p" ++ bytes " " ++
        rest := by
    rw [IpTablesRule.specification, IpTablesRule.body, protocol, if_pos (by decide)]
    simp only [List.append_assoc]
    exact ⟨_, rfl⟩
  have flag : IsPlainText (bytes "-p") := isPlainText_of_mem_flags (by simp [flags])
  have nulFree : 0 ∉ chainName (IpTablesRule.parse value).direction ++ bytes " " ++ bytes "-p" ++
      bytes " " := by
    simp only [List.mem_append, not_or]
    exact ⟨⟨⟨chain.2, by decide⟩, flag.2⟩, by decide⟩
  rw [specification_eq, ByteString.cString_append_of_not_mem nulFree, List.append_assoc,
    List.append_assoc, List.append_assoc] at reads
  change words (_ ++ 32 :: (bytes "-p" ++ 32 :: _)) = _ at reads
  rw [words_literal_blank chain.1.1, words_literal_blank flag.1.1, Option.map_map] at reads
  obtain ⟨later, -, rfl⟩ := Option.map_eq_some_iff.mp reads
  simp only [Function.comp_apply, List.map_cons, text_unquotedWord, specificationWords,
    List.cons.injEq] at same
  cases pairs with
  | nil => exact absurd (List.cons.inj same.2).1 (by decide)
  | cons pair pairs =>
      have first : bytes "-p" = pair.1 := (List.cons.inj same.2).1
      have mem := mem_expectedPairs.mp (perm.mem_iff.mp List.mem_cons_self)
      rw [← first, absent] at mem
      rcases mem with ⟨-, given⟩ | ⟨other, -⟩ | ⟨other, -⟩ | ⟨other, -⟩ | ⟨other, -⟩
      · cases given
      all_goals exact absurd other (by decide)

theorem length_cString_append_lt {front : ByteString} (nul : 0 ∈ front) (rest : ByteString) :
    (front ++ rest).cString.length < front.length := by
  induction front with
  | nil => cases nul
  | cons byte front ih =>
      by_cases zero : byte = 0
      · simp [ByteString.cString, zero]
      · have later := ih ((List.mem_cons.mp nul).resolve_left (Ne.symm zero))
        rw [List.cons_append, ByteString.cString, List.takeWhile_cons_of_pos (by simpa using zero)]
        exact Nat.succ_lt_succ later

theorem Near.specificationWords {slack : ℕ} {written expected : List Pair}
    (near : Near slack written expected) (chain target : ByteString) :
    wordsSize (specificationWords chain target written) +
        wordsSigns (specificationWords chain target expected) ≤
      wordsSize (specificationWords chain target expected) +
        wordsSigns (specificationWords chain target written) ∧
    wordsSigns (specificationWords chain target written) ≤
      wordsSigns (specificationWords chain target expected) + slack := by
  have sizes := near.size
  have signs := near.signs
  have split : ∀ pairs, Firewall.specificationWords chain target pairs =
      [chain] ++ (pairWords pairs ++ [bytes "-j", target]) := fun _ => rfl
  simp only [split, wordsSize_append, wordsSigns_append]
  omega

/-- A specification that is split into the words of its pairs has no NUL: too much would be cut off
behind it. -/
theorem nul_notMem_of_words {chain target text : ByteString} {written pairs : List Pair}
    {found : List Word} (near : Near 2 written pairs)
    (text_eq : text = List.intercalate [32] (specificationWords chain target written))
    (reads : words text.cString = some found)
    (same : found.map Word.text = specificationWords chain target pairs)
    (targetFree : 0 ∉ target) : 0 ∉ text := by
  intro nul
  have parts := intercalate_specificationWords chain target written
  rw [← text_eq, ← List.append_assoc] at parts
  have tailFree : 0 ∉ bytes "-j " ++ target := by
    rw [List.mem_append, not_or]
    exact ⟨by decide, targetFree⟩
  have front : 0 ∈ chain ++ bytes " " ++ pairText written := by
    rw [parts] at nul
    exact (List.mem_append.mp nul).resolve_right tailFree
  have cut := length_cString_append_lt front (bytes "-j " ++ target)
  rw [← parts] at cut
  have length := congrArg List.length parts
  rw [List.length_append] at length
  have tail := @List.length_append _ (bytes "-j ") target
  have flag : (bytes "-j ").length = 3 := by decide
  have whole : text.length + 1 = wordsSize (specificationWords chain target written) := by
    rw [text_eq]
    exact length_intercalate (List.cons_ne_nil _ _)
  have bound : wordsSize (specificationWords chain target pairs) ≤ text.cString.length + 1 := by
    rw [wordsSize, ← taken_eq_of_texts same]
    exact taken_le_of_words reads
  obtain ⟨sizes, signs⟩ := near.specificationWords chain target
  omega

/-- Where the words are those of the pairs, nothing is lost. -/
theorem lossless_of_words {chain target text : ByteString} {written pairs : List Pair}
    {found : List Word} (near : Near 2 written pairs)
    (text_eq : text = List.intercalate [32] (specificationWords chain target written))
    (reads : words text = some found)
    (same : found.map Word.text = specificationWords chain target pairs) :
    text.length + 1 ≤ taken found := by
  have signs : wordsSigns (specificationWords chain target written) =
      wordsSigns (specificationWords chain target pairs) := by
    rw [wordsSigns, ← count_intercalate (by decide), ← text_eq, wordsSigns,
      ← occurrences_of_texts same]
    exact count_of_words (by decide) reads
  have whole : text.length + 1 = wordsSize (specificationWords chain target written) := by
    rw [text_eq]
    exact length_intercalate (List.cons_ne_nil _ _)
  have expected : taken found = wordsSize (specificationWords chain target pairs) :=
    taken_eq_of_texts same
  obtain ⟨sizes, -⟩ := near.specificationWords chain target
  omega

theorem pairWords_injective {pairs others : List Pair} (same : pairWords pairs = pairWords others) :
    pairs = others := by
  induction pairs generalizing others with
  | nil =>
      cases others with
      | nil => rfl
      | cons other others => cases same
  | cons pair pairs ih =>
      cases others with
      | nil => cases same
      | cons other others =>
          have parts : pair.1 :: pair.2 :: pairWords pairs =
              other.1 :: other.2 :: pairWords others := same
          injection parts with first parts
          injection parts with second parts
          rw [ih parts, Prod.ext first second]

theorem plain_of_isEncoded (noError : (IpTablesRule.parse value).parseError = [])
    (isEncoded : IsEncoded value) :
    (writtenPairs value).Perm (expectedPairs value) ∧
      ∀ text ∈ pairWords (writtenPairs value), IsPlainText text := by
  have isGiven := isGiven_parse noError
  have isValid := isValid_parse noError
  have text_eq := specification_eq isGiven (protocol_of_isEncoded noError isEncoded)
  obtain ⟨found, pairs, reads, perm, same, plain⟩ := isEncoded
  have near := (near_writtenPairs value).perm perm
  rw [isGiven.direction, isGiven.action, Option.getD_some, Option.getD_some] at same
  have chain := isPlainText_chainName isValid.direction
  have target := isPlainText_targetName isValid.action
  have nulFree := nul_notMem_of_words near text_eq reads same target.2
  rw [ByteString.cString_of_not_mem nulFree] at reads
  have lossless := lossless_of_words near text_eq reads same
  have literalWords := isLiteralWord_of_words reads lossless
  have literal : ∀ pair ∈ expectedPairs value, IsLiteral pair.2 := by
    intro pair mem
    have text_mem : pair.2 ∈ pairWords pairs :=
      mem_pairWords.mpr ⟨pair, perm.mem_iff.mpr mem, .inr rfl⟩
    have found_mem : pair.2 ∈ found.map Word.text := by
      rw [same, specificationWords]
      exact List.mem_cons_of_mem _ (List.mem_append_left _ text_mem)
    obtain ⟨word, word_mem, word_eq⟩ := List.mem_map.mp found_mem
    obtain ⟨text, isLiteral, rfl⟩ := literalWords word word_mem
    rw [← word_eq, text_unquotedWord]
    exact isLiteral
  have literalWritten : ∀ text ∈ specificationWords (chainName (IpTablesRule.parse value).direction)
      (targetName (IpTablesRule.parse value).action) (writtenPairs value), IsLiteral text := by
    refine forall_specificationWords chain.1.1 (by decide +kernel) target.1.1 ?_
    refine forall_writtenPairs (fun _ isPlain => isPlain.1.1) (mem_protocols_of_given noError) ?_
    intro name mem text given _
    rcases List.mem_pair.mp mem with rfl | rfl
    · exact literal (bytes "-s", text) (mem_expectedPairs.mpr (.inr (.inl ⟨rfl, given⟩)))
    · exact literal (bytes "-d", text)
        (mem_expectedPairs.mpr (.inr (.inr (.inr (.inl ⟨rfl, given⟩)))))
  have found_eq := words_intercalate literalWritten
  rw [← text_eq, reads, Option.some_inj] at found_eq
  rw [found_eq, map_text_unquotedWord, specificationWords, specificationWords, List.cons.injEq,
    List.append_left_inj] at same
  rw [← pairWords_injective same.2] at perm
  refine ⟨perm, fun text mem => ?_⟩
  have text_mem : text ∈ specificationWords (chainName (IpTablesRule.parse value).direction)
      (targetName (IpTablesRule.parse value).action) (writtenPairs value) :=
    List.mem_cons_of_mem _ (List.mem_append_left _ mem)
  rw [text_eq] at nulFree
  refine ⟨⟨literalWritten text text_mem, plain _ ?_⟩, nul_notMem_intercalate.mp nulFree text text_mem⟩
  rw [found_eq]
  exact List.mem_map_of_mem text_mem

theorem isEncodable_of_isEncoded (noError : (IpTablesRule.parse value).parseError = [])
    (isEncoded : IsEncoded value) : IsEncodable value := by
  obtain ⟨perm, plain⟩ := plain_of_isEncoded noError isEncoded
  have text : ∀ {pair}, pair ∈ expectedPairs value → IsPlainText pair.2 := fun mem =>
    plain _ (mem_pairWords.mpr ⟨_, perm.mem_iff.mpr mem, .inr rfl⟩)
  have port : ∀ {name : ByteString} {number : ℤ}, number ∈ givenInteger value name →
      ((givenInteger value name).map fun number => Numerals.renderInt 10 (narrowed number)) =
        some (Numerals.renderInt 10 number) → -2 ^ 31 ≤ number ∧ number < 2 ^ 31 := by
    intro name number given written
    rw [Option.mem_def] at given
    rw [given, Option.map_some, Option.some_inj] at written
    exact narrowed_eq_iff.mp (Numerals.renderInt_injective written)
  refine ⟨protocol_of_isEncoded noError isEncoded, ?_, ?_, ?_, ?_⟩
  · intro source given
    have expected : (bytes "-s", source) ∈ expectedPairs value :=
      mem_expectedPairs.mpr (.inr (.inl ⟨rfl, given⟩))
    exact text expected
  · intro destination given
    have expected : (bytes "-d", destination) ∈ expectedPairs value :=
      mem_expectedPairs.mpr (.inr (.inr (.inr (.inl ⟨rfl, given⟩))))
    exact text expected
  · intro number given
    have expected : (bytes "--source-port", Numerals.renderInt 10 number) ∈ expectedPairs value :=
      mem_expectedPairs.mpr (.inr (.inr (.inl
        ⟨rfl, congrArg (Option.map (Numerals.renderInt 10)) given⟩)))
    have written := mem_writtenPairs.mp (perm.mem_iff.mpr expected)
    dsimp only at written
    rcases written with
      ⟨other, -⟩ | ⟨other, -⟩ | ⟨-, written⟩ | ⟨other, -⟩ | ⟨other, -⟩
    case inr.inr.inl => exact port given written
    all_goals exact absurd other (by decide)
  · intro number given
    have expected : (bytes "--destination-port", Numerals.renderInt 10 number) ∈
        expectedPairs value :=
      mem_expectedPairs.mpr (.inr (.inr (.inr (.inr
        ⟨rfl, congrArg (Option.map (Numerals.renderInt 10)) given⟩))))
    have written := mem_writtenPairs.mp (perm.mem_iff.mpr expected)
    dsimp only at written
    rcases written with
      ⟨other, -⟩ | ⟨other, -⟩ | ⟨other, -⟩ | ⟨other, -⟩ | ⟨-, written⟩
    case inr.inr.inr.inr => exact port given written
    all_goals exact absurd other (by decide)

/-- A shell splits the specification of a rule into what the rule gives exactly if the protocol is
given, the addresses are plain texts and the ports fit into an `int`. -/
theorem isEncoded_iff (noError : (IpTablesRule.parse value).parseError = []) :
    IsEncoded value ↔ IsEncodable value :=
  ⟨isEncodable_of_isEncoded noError, isEncoded_of_isEncodable noError⟩

/-- A rule that accepts what comes in, with further members. -/
def inputRule (members : List (ByteString × Json)) : Json :=
  .object ([(desiredStateName, .string (bytes "present")), (actionName, .string (bytes "accept")),
    (directionName, .string (bytes "in"))] ++ members)

def networkRule : Json :=
  inputRule [(protocolName, .string (bytes "tcp")), (sourceName, .string (bytes "10.1.0.0/16")),
    (destinationPortName, .unsigned 22)]

theorem isEncoded_networkRule :
    (IpTablesRule.parse networkRule).parseError = [] ∧ IsEncoded networkRule := by
  have noError : (IpTablesRule.parse networkRule).parseError = [] := by decide +kernel
  have source : ∀ text ∈ givenText networkRule sourceName, IsPlainText text := by decide +kernel
  refine ⟨noError, (isEncoded_iff noError).mpr ⟨by decide, source, by decide, by decide, ?_⟩⟩
  intro number given
  obtain rfl : 22 = number := Option.some_inj.mp given
  decide

/-- A protocol that is not given. -/
def bareRule : Json :=
  inputRule []

/-- An address that ends the command and starts another one. -/
def operatorRule : Json :=
  inputRule [(protocolName, .string (bytes "any")), (sourceName, .string (bytes ";reboot;"))]

/-- A port that becomes 80. -/
def widePortRule : Json :=
  inputRule [(protocolName, .string (bytes "tcp")), (destinationPortName, .unsigned 4294967376)]

theorem isEncoded_not :
    (∀ value ∈ [bareRule, operatorRule, widePortRule], (IpTablesRule.parse value).parseError = []) ∧
      ¬ IsEncoded bareRule ∧ ¬ IsEncoded operatorRule ∧ ¬ IsEncoded widePortRule := by
  have noErrors : ∀ value ∈ [bareRule, operatorRule, widePortRule],
      (IpTablesRule.parse value).parseError = [] := by
    intro value mem
    simp only [List.mem_cons, List.not_mem_nil, or_false] at mem
    rcases mem with rfl | rfl | rfl
    all_goals decide +kernel
  refine ⟨noErrors, ?_, ?_, ?_⟩
  · intro isEncoded
    exact protocol_of_isEncoded (noErrors bareRule (by simp)) isEncoded (by decide +kernel)
  · intro isEncoded
    have isEncodable := isEncodable_of_isEncoded (noErrors operatorRule (by simp)) isEncoded
    have isPlain := isEncodable.source (bytes ";reboot;") (by decide +kernel)
    exact absurd isPlain (by decide +kernel)
  · intro isEncoded
    have isEncodable := isEncodable_of_isEncoded (noErrors widePortRule (by simp)) isEncoded
    have fits := (isEncodable.destinationPort 4294967376 (by decide +kernel)).2
    exact absurd fits (by decide)

end Encoding

end OsConfig.Firewall
