import Mathlib.Computability.RegularExpressions
import OsConfig.Library.Formats
import OsConfig.Library.ShellWords.Lossless
import OsConfig.Pmc.SourceFiles

/-!
# Lines of packages

A line is checked against a pattern before it becomes part of a command. The
names of the packages are cut out of its words, and each name becomes part of a
command of its own. The pattern keeps everything out of a line that a shell reads
as anything else than words, but it lets words pass that name nothing.
-/

namespace OsConfig.Pmc

open ByteString (isAlnum isDigit)
open ShellWords (simpleCommand pipeline)

section Pattern

def charClass (accepts : UInt8 → Bool) : RegularExpression UInt8 :=
  (((List.range 256).map UInt8.ofNat).filter accepts).foldr
    (fun byte others => .char byte + others) 0

/-- `e+` -/
def oneOrMore (expression : RegularExpression UInt8) : RegularExpression UInt8 :=
  expression * expression.star

/-- `[a-zA-Z\d\-]` -/
def isPackageByte (byte : UInt8) : Bool :=
  isAlnum byte || byte = 45

/-- `[a-zA-Z\d\.\+\-\~\:]` -/
def isVersionByte (byte : UInt8) : Bool :=
  isAlnum byte || byte = 46 || byte = 43 || byte = 45 || byte = 126 || byte = 58

/-- `=[a-zA-Z\d\.\+\-\~\:]+|\-| ` -/
def afterName : RegularExpression UInt8 :=
  .char 61 * oneOrMore (charClass isVersionByte) + (.char 45 + .char 32)

/-- `g_regexPackages` -/
def packagesExpression : RegularExpression UInt8 :=
  oneOrMore (oneOrMore (charClass isPackageByte) * afterName.star)

/-- The libraries with `std::regex` as far as the commands and the lines of packages need it. -/
def Libraries.withRegex (libraries : Libraries) : Libraries where
  parse := libraries.parse
  regexMatch := fun pattern text =>
    if pattern = regexPackages then
      if packagesExpression.rmatch text then some [some text] else none
    else libraries.regexMatch pattern text
  regexReplace := fun text pattern format =>
    match pattern with
    | 92 :: literal => Formats.replace literal format text
    | _ => libraries.regexReplace text pattern format

end Pattern

section Model

def commandGetInstalledPackageVersion : ByteString :=
  bytes "apt-cache policy $value | grep Installed"

/-- `Split` with a delimiter of one character. -/
def split (str : ByteString) (delimiter : UInt8) : List ByteString :=
  Words.words (fun byte => byte = delimiter) str

/-- `TrimEnd` with one character. -/
def trimEnd (str : ByteString) (trim : UInt8) : ByteString :=
  str.rdropWhile (· = trim)

/-- `TrimStart` with one character. -/
def trimStart (str : ByteString) (trim : UInt8) : ByteString :=
  str.dropWhile (· = trim)

/-- `Split(element, "=")[0]`, where there is one. -/
def firstPart (element : ByteString) : Option ByteString :=
  (split element 61)[0]?

/-- The names that `ValidateAndGetPackagesNames` records for a line. -/
def namesOfLine (packagesLine : ByteString) : List ByteString :=
  (split packagesLine 32).filterMap fun element => (firstPart element).map (trimEnd · 45)

variable (libraries : Libraries)

/-- The loop of `ValidateAndGetPackagesNames`. The names are forgotten at a line that is refused. -/
def recordPackagesNames : List ByteString → List ByteString → Progress →
    ℤ × List ByteString × Progress
  | [], names, progress => (0, names, progress)
  | packagesLine :: rest, names, progress =>
      let progress := progress.setExecutionState .running .deserializingPackages packagesLine
      if (libraries.regexMatch regexPackages packagesLine).isSome then
        recordPackagesNames rest (names ++ namesOfLine packagesLine) progress
      else
        (einval, [], progress.setExecutionState .failed .deserializingPackages packagesLine)

/-- The command of `ExecuteUpdate`. -/
def updateCommand (package : ByteString) : ByteString :=
  libraries.regexReplace commandExecuteUpdate (bytes "\\$value") package

/-- `ExecuteUpdates` with the commands that it runs, each beside its line. -/
def runUpdates (machine : Machine) : List ByteString → Progress →
    (ℤ × Progress) × List (ByteString × ByteString)
  | [], progress => ((0, progress.setExecutionState .succeeded .none []), [])
  | package :: rest, progress =>
      let number := progress.steps.length
      let progress := progress.setExecutionState .running .installingPackages package
      let command := updateCommand libraries package
      let status := machine.runCommand number command true
      if status ≠ 0 then
        ((status, (progress.carriedOut (.installPackages package) false).setExecutionState
          (if status = etime then .timedOut else .failed) .installingPackages package),
          [(package, command)])
      else
        let updated := runUpdates machine rest (progress.carriedOut (.installPackages package) true)
        (updated.1, (package, command) :: updated.2)

/-- The command that `GetReportedPackages` runs for a name. -/
def policyCommand (packageName : ByteString) : ByteString :=
  libraries.regexReplace commandGetInstalledPackageVersion (bytes "\\$value") packageName

/-- The version of a package, from what the command printed. -/
def reportedVersion (rawVersion : ByteString) : ByteString :=
  if rawVersion = [] then bytes "(failed)"
  else if 58 ∈ rawVersion then (rawVersion.dropWhile (· ≠ 58)).drop 1
  else rawVersion

/-- The loop of `GetReportedPackages`: the elements that are reported and the commands that are
run, each beside its name. A name is asked for once. -/
def getReportedPackages (rawVersion : ByteString → ByteString) :
    List ByteString → List ByteString → List ByteString × List (ByteString × ByteString)
  | [], _ => ([], [])
  | packageName :: rest, uniquePackages =>
      if packageName ∈ uniquePackages then getReportedPackages rawVersion rest uniquePackages
      else
        let command := policyCommand libraries packageName
        let version := reportedVersion (rawVersion command)
        let element := packageName ++ bytes "=" ++ trimStart (trimEnd version 32) 32
        let reported := getReportedPackages rawVersion rest (packageName :: uniquePackages)
        (element :: reported.1, (packageName, command) :: reported.2)

end Model

section Agreement

variable (libraries : Libraries)

/-- Every command belongs to a line. -/
theorem mem_runUpdates {machine : Machine} {packages : List ByteString} {progress : Progress}
    {package command : ByteString}
    (mem : (package, command) ∈ (runUpdates libraries machine packages progress).2) :
    package ∈ packages ∧ command = updateCommand libraries package := by
  induction packages generalizing progress with
  | nil => cases mem
  | cons first rest ih =>
      rw [runUpdates] at mem
      dsimp only at mem
      split at mem
      · cases List.mem_singleton.mp mem
        exact ⟨List.mem_cons_self, rfl⟩
      · rcases List.mem_cons.mp mem with here | later
        · cases here
          exact ⟨List.mem_cons_self, rfl⟩
        · exact ⟨List.mem_cons_of_mem _ (ih later).1, (ih later).2⟩

theorem mem_getReportedPackages_iff {rawVersion : ByteString → ByteString}
    {names uniquePackages : List ByteString} {name command : ByteString} :
    (name, command) ∈ (getReportedPackages libraries rawVersion names uniquePackages).2 ↔
      name ∈ names ∧ name ∉ uniquePackages ∧ command = policyCommand libraries name := by
  induction names generalizing uniquePackages with
  | nil => simp [getReportedPackages]
  | cons first rest ih =>
      rw [getReportedPackages]
      split
      next seen =>
        rw [ih]
        constructor
        · rintro ⟨mem, unseen, rfl⟩
          exact ⟨List.mem_cons_of_mem _ mem, unseen, rfl⟩
        · rintro ⟨mem, unseen, rfl⟩
          rcases List.mem_cons.mp mem with rfl | later
          · exact absurd seen unseen
          · exact ⟨later, unseen, rfl⟩
      next unseen =>
        simp only [List.mem_cons, Prod.mk.injEq, ih]
        constructor
        · rintro (⟨rfl, rfl⟩ | ⟨mem, fresh, rfl⟩)
          · exact ⟨Or.inl rfl, unseen, rfl⟩
          · exact ⟨Or.inr mem, fun seen => fresh (Or.inr seen), rfl⟩
        · rintro ⟨rfl | mem, fresh, rfl⟩
          · exact Or.inl ⟨rfl, rfl⟩
          · by_cases same : name = first
            · exact Or.inl ⟨same, by rw [same]⟩
            · exact Or.inr ⟨mem, by simp [same, fresh], rfl⟩

end Agreement

section Language

open RegularExpression

variable {text line : ByteString}

theorem mem_char_iff {byte : UInt8} :
    text ∈ (RegularExpression.char byte).matches' ↔ text = [byte] := Iff.rfl

theorem mem_charClass_iff {accepts : UInt8 → Bool} :
    text ∈ (charClass accepts).matches' ↔ ∃ byte, accepts byte = true ∧ text = [byte] := by
  have general : ∀ bytes : List UInt8,
      text ∈ (bytes.foldr (fun byte others => RegularExpression.char byte + others) 0).matches' ↔
        ∃ byte ∈ bytes, text = [byte] := by
    intro bytes
    induction bytes with
    | nil => simp [Language.notMem_zero]
    | cons byte others ih =>
        rw [List.foldr_cons, matches'_add, Language.mem_add, ih, mem_char_iff]
        simp
  rw [charClass, general]
  constructor
  · rintro ⟨byte, mem, rfl⟩
    exact ⟨byte, (List.mem_filter.mp mem).2, rfl⟩
  · rintro ⟨byte, accepted, rfl⟩
    refine ⟨byte, List.mem_filter.mpr ⟨?_, accepted⟩, rfl⟩
    exact List.mem_map.mpr ⟨byte.toNat, List.mem_range.mpr byte.toNat_lt, by simp⟩

theorem mem_star_iff {expression : RegularExpression UInt8} :
    text ∈ expression.star.matches' ↔
      ∃ parts : List ByteString, text = parts.flatten ∧ ∀ part ∈ parts, part ∈ expression.matches' := by
  rw [matches'_star, Language.mem_kstar]

theorem mem_oneOrMore_iff {expression : RegularExpression UInt8} :
    text ∈ (oneOrMore expression).matches' ↔
      ∃ part ∈ expression.matches', ∃ parts : List ByteString, text = part ++ parts.flatten ∧
        ∀ part ∈ parts, part ∈ expression.matches' := by
  rw [oneOrMore, matches'_mul, Language.mem_mul]
  constructor
  · rintro ⟨part, mem, rest, rest_mem, rfl⟩
    obtain ⟨parts, rfl, all⟩ := mem_star_iff.mp rest_mem
    exact ⟨part, mem, parts, rfl, all⟩
  · rintro ⟨part, mem, parts, rfl, all⟩
    exact ⟨part, mem, parts.flatten, mem_star_iff.mpr ⟨parts, rfl, all⟩, rfl⟩

theorem mem_oneOrMore_charClass_iff {accepts : UInt8 → Bool} :
    text ∈ (oneOrMore (charClass accepts)).matches' ↔
      text ≠ [] ∧ ∀ byte ∈ text, accepts byte = true := by
  rw [mem_oneOrMore_iff]
  constructor
  · rintro ⟨part, part_mem, parts, rfl, all⟩
    obtain ⟨byte, accepted, rfl⟩ := mem_charClass_iff.mp part_mem
    refine ⟨by simp, ?_⟩
    intro other mem
    rcases List.mem_append.mp mem with here | later
    · rwa [List.mem_singleton.mp here]
    · obtain ⟨part, part_mem, mem⟩ := List.mem_flatten.mp later
      obtain ⟨byte, accepted, rfl⟩ := mem_charClass_iff.mp (all part part_mem)
      rwa [List.mem_singleton.mp mem]
  · rintro ⟨nonempty, all⟩
    cases text with
    | nil => exact absurd rfl nonempty
    | cons byte rest =>
        rw [List.forall_mem_cons] at all
        refine ⟨[byte], mem_charClass_iff.mpr ⟨byte, all.1, rfl⟩, rest.map fun byte => [byte], ?_, ?_⟩
        · simp [← List.flatMap_def]
        · intro part mem
          obtain ⟨byte, byte_mem, rfl⟩ := List.mem_map.mp mem
          exact mem_charClass_iff.mpr ⟨byte, all.2 byte byte_mem, rfl⟩

/-- A piece of a line: a letter of a name, a blank, or a version with its `=`. -/
inductive IsPiece : ByteString → Prop where
  | letter (byte : UInt8) (accepted : isPackageByte byte = true) : IsPiece [byte]
  | blank : IsPiece [32]
  | version (version : ByteString) (nonempty : version ≠ [])
      (accepted : ∀ byte ∈ version, isVersionByte byte = true) : IsPiece (61 :: version)

theorem mem_afterName_iff : text ∈ afterName.matches' ↔
    (∃ version, version ≠ [] ∧ (∀ byte ∈ version, isVersionByte byte = true) ∧
      text = 61 :: version) ∨ text = [45] ∨ text = [32] := by
  rw [afterName, matches'_add, Language.mem_add, matches'_add, Language.mem_add, mem_char_iff,
    mem_char_iff, matches'_mul, Language.mem_mul]
  refine or_congr ?_ Iff.rfl
  constructor
  · rintro ⟨equals, equals_eq, version, version_mem, rfl⟩
    rw [mem_char_iff] at equals_eq
    obtain ⟨nonempty, accepted⟩ := mem_oneOrMore_charClass_iff.mp version_mem
    exact ⟨version, nonempty, accepted, by rw [equals_eq]; rfl⟩
  · rintro ⟨version, nonempty, accepted, rfl⟩
    exact ⟨[61], rfl, version, mem_oneOrMore_charClass_iff.mpr ⟨nonempty, accepted⟩, rfl⟩

theorem isPiece_of_afterName (mem : text ∈ afterName.matches') : IsPiece text := by
  rcases mem_afterName_iff.mp mem with ⟨version, nonempty, accepted, rfl⟩ | rfl | rfl
  · exact .version version nonempty accepted
  · exact .letter 45 rfl
  · exact .blank

/-- Names with what follows each of them, between two repetitions. -/
def packageGroup : RegularExpression UInt8 :=
  oneOrMore (charClass isPackageByte) * afterName.star

theorem packageGroup_cons {byte : UInt8} (accepted : isPackageByte byte = true)
    (tail_mem : text ∈ afterName.star.matches') : byte :: text ∈ packageGroup.matches' := by
  rw [packageGroup, matches'_mul, Language.mem_mul]
  refine ⟨[byte], mem_oneOrMore_charClass_iff.mpr ⟨by simp, ?_⟩, text, tail_mem, rfl⟩
  intro other mem
  rwa [List.mem_singleton.mp mem]

theorem exists_pieces_of_packageGroup (mem : text ∈ packageGroup.matches') :
    ∃ byte pieces, isPackageByte byte = true ∧ text = byte :: List.flatten pieces ∧
      ∀ piece ∈ pieces, IsPiece piece := by
  rw [packageGroup, matches'_mul, Language.mem_mul] at mem
  obtain ⟨name, name_mem, tail, tail_mem, rfl⟩ := mem
  obtain ⟨nonempty, accepted⟩ := mem_oneOrMore_charClass_iff.mp name_mem
  obtain ⟨parts, rfl, all⟩ := mem_star_iff.mp tail_mem
  cases name with
  | nil => exact absurd rfl nonempty
  | cons byte others =>
      rw [List.forall_mem_cons] at accepted
      refine ⟨byte, (others.map fun byte => [byte]) ++ parts, accepted.1, ?_, ?_⟩
      · rw [List.flatten_append, ← List.flatMap_def, List.flatMap_singleton', List.cons_append]
      · intro piece mem
        rcases List.mem_append.mp mem with letter | behind
        · obtain ⟨byte, byte_mem, rfl⟩ := List.mem_map.mp letter
          exact .letter byte (accepted.2 byte byte_mem)
        · exact isPiece_of_afterName (all piece behind)

theorem exists_groups_of_pieces {pieces : List ByteString} (all : ∀ piece ∈ pieces, IsPiece piece) :
    ∃ tail groups, pieces.flatten = tail ++ List.flatten groups ∧
      tail ∈ afterName.star.matches' ∧ ∀ group ∈ groups, group ∈ packageGroup.matches' := by
  induction pieces with
  | nil => exact ⟨[], [], rfl, mem_star_iff.mpr ⟨[], rfl, by simp⟩, by simp⟩
  | cons piece pieces ih =>
      rw [List.forall_mem_cons] at all
      obtain ⟨tail, groups, parts, tail_mem, groups_mem⟩ := ih all.2
      have extended : ∀ {piece : ByteString}, piece ∈ afterName.matches' →
          piece ++ tail ∈ afterName.star.matches' := by
        intro piece piece_mem
        obtain ⟨others, rfl, others_mem⟩ := mem_star_iff.mp tail_mem
        exact mem_star_iff.mpr ⟨piece :: others, rfl, by simpa using ⟨piece_mem, others_mem⟩⟩
      cases all.1 with
      | letter byte accepted =>
          refine ⟨[], (byte :: tail) :: groups, ?_, mem_star_iff.mpr ⟨[], rfl, by simp⟩, ?_⟩
          · rw [List.flatten_cons, parts]
            rfl
          · rw [List.forall_mem_cons]
            exact ⟨packageGroup_cons accepted tail_mem, groups_mem⟩
      | blank =>
          refine ⟨[32] ++ tail, groups, ?_, extended (mem_afterName_iff.mpr (.inr (.inr rfl))),
            groups_mem⟩
          rw [List.flatten_cons, parts, List.append_assoc]
      | version version nonempty accepted =>
          refine ⟨(61 :: version) ++ tail, groups, ?_,
            extended (mem_afterName_iff.mpr (.inl ⟨version, nonempty, accepted, rfl⟩)), groups_mem⟩
          rw [List.flatten_cons, parts, List.append_assoc]

/-- A line is accepted exactly if it is put together from pieces and starts with a letter. -/
theorem mem_packagesExpression_iff : line ∈ packagesExpression.matches' ↔
    ∃ byte pieces, isPackageByte byte = true ∧ line = byte :: List.flatten pieces ∧
      ∀ piece ∈ pieces, IsPiece piece := by
  rw [packagesExpression, ← packageGroup, mem_oneOrMore_iff]
  constructor
  · rintro ⟨first, first_mem, groups, rfl, groups_mem⟩
    obtain ⟨byte, pieces, accepted, rfl, all⟩ := exists_pieces_of_packageGroup first_mem
    have behind : ∃ pieces : List ByteString, groups.flatten = pieces.flatten ∧
        ∀ piece ∈ pieces, IsPiece piece := by
      clear first_mem
      induction groups with
      | nil => exact ⟨[], rfl, by simp⟩
      | cons group groups ih =>
          rw [List.forall_mem_cons] at groups_mem
          obtain ⟨byte, before, accepted, rfl, before_all⟩ :=
            exists_pieces_of_packageGroup groups_mem.1
          obtain ⟨after, after_eq, after_all⟩ := ih groups_mem.2
          refine ⟨[byte] :: (before ++ after), by simp [after_eq], ?_⟩
          rw [List.forall_mem_cons, List.forall_mem_append]
          exact ⟨.letter byte accepted, before_all, after_all⟩
    obtain ⟨after, after_eq, after_all⟩ := behind
    refine ⟨byte, pieces ++ after, accepted, by simp [after_eq], ?_⟩
    rw [List.forall_mem_append]
    exact ⟨all, after_all⟩
  · rintro ⟨byte, pieces, accepted, rfl, all⟩
    obtain ⟨tail, groups, parts, tail_mem, groups_mem⟩ := exists_groups_of_pieces all
    exact ⟨byte :: tail, packageGroup_cons accepted tail_mem, groups, by rw [parts]; rfl, groups_mem⟩

/-- A line that `std::regex_match` accepts. -/
def IsAccepted (line : ByteString) : Prop :=
  line ∈ packagesExpression.matches'

theorem isSome_regexMatch_iff (libraries : Libraries) (line : ByteString) :
    (libraries.withRegex.regexMatch regexPackages line).isSome = true ↔ IsAccepted line := by
  have found : libraries.withRegex.regexMatch regexPackages line =
      if packagesExpression.rmatch line then some [some line] else none := by
    simp [Libraries.withRegex]
  rw [found, IsAccepted, ← rmatch_iff_matches']
  split <;> simp_all

end Language

section Neighbours

variable {line : ByteString} {byte next : UInt8}

/-- What may follow a character of a line. -/
def MayFollow (byte next : UInt8) : Prop :=
  (next = 126 → byte ≠ 32) ∧ (byte = 61 → isVersionByte next = true)

def isLineByte (byte : UInt8) : Bool :=
  isVersionByte byte || byte = 61 || byte = 32

theorem not_tilde_of_isPackageByte (accepted : isPackageByte byte = true) :
    byte ≠ 126 ∧ byte ≠ 61 := by
  constructor
  · rintro rfl
    cases accepted
  · rintro rfl
    cases accepted

theorem not_special_of_isVersionByte (accepted : isVersionByte byte = true) :
    byte ≠ 32 ∧ byte ≠ 61 := by
  constructor
  · rintro rfl
    cases accepted
  · rintro rfl
    cases accepted

theorem isVersionByte_of_isPackageByte (accepted : isPackageByte byte = true) :
    isVersionByte byte = true := by
  unfold isPackageByte at accepted
  unfold isVersionByte
  simp only [Bool.or_eq_true] at accepted ⊢
  tauto

/-- A version and what follows it, behind its `=` or behind a part of it. -/
theorem isChain_version {version rest : ByteString} (accepted : ∀ byte ∈ version, isVersionByte byte)
    (onward : ∀ last, last ≠ 61 → List.IsChain MayFollow (last :: rest))
    (before : byte ≠ 32) (closed : version = [] → byte ≠ 61) :
    List.IsChain MayFollow (byte :: (version ++ rest)) := by
  induction version generalizing byte with
  | nil => exact onward byte (closed rfl)
  | cons next version ih =>
      rw [List.forall_mem_cons] at accepted
      have special := not_special_of_isVersionByte accepted.1
      rw [List.cons_append, List.isChain_cons_cons]
      exact ⟨⟨fun _ => before, fun _ => accepted.1⟩, ih accepted.2 special.1 fun _ => special.2⟩

theorem isChain_pieces {pieces : List ByteString} (all : ∀ piece ∈ pieces, IsPiece piece)
    (byte : UInt8) (closed : byte ≠ 61) :
    List.IsChain MayFollow (byte :: (pieces.flatten ++ [32])) := by
  induction pieces generalizing byte with
  | nil =>
      rw [List.flatten_nil, List.nil_append, List.isChain_pair]
      exact ⟨fun tilde => absurd tilde (by decide), fun equals => absurd equals closed⟩
  | cons piece pieces ih =>
      rw [List.forall_mem_cons] at all
      rw [List.flatten_cons, List.append_assoc]
      cases all.1 with
      | letter next accepted =>
          have special := not_tilde_of_isPackageByte accepted
          rw [List.singleton_append, List.isChain_cons_cons]
          exact ⟨⟨fun tilde => absurd tilde special.1, fun equals => absurd equals closed⟩,
            ih all.2 next special.2⟩
      | blank =>
          rw [List.singleton_append, List.isChain_cons_cons]
          exact ⟨⟨fun tilde => absurd tilde (by decide), fun equals => absurd equals closed⟩,
            ih all.2 32 (by decide)⟩
      | version version nonempty accepted =>
          rw [List.cons_append, List.isChain_cons_cons]
          refine ⟨⟨fun tilde => absurd tilde (by decide), fun equals => absurd equals closed⟩, ?_⟩
          exact isChain_version accepted (fun last => ih all.2 last) (by decide)
            fun empty => absurd empty nonempty

theorem isChain_of_isAccepted (accepted : IsAccepted line) :
    List.IsChain MayFollow (32 :: (line ++ [32])) := by
  obtain ⟨byte, pieces, isPackage, rfl, all⟩ := mem_packagesExpression_iff.mp accepted
  have special := not_tilde_of_isPackageByte isPackage
  rw [List.cons_append, List.isChain_cons_cons]
  exact ⟨⟨fun tilde => absurd tilde special.1, fun equals => absurd equals (by decide)⟩,
    isChain_pieces all byte special.2⟩

theorem isLineByte_of_isAccepted (accepted : IsAccepted line) :
    ∀ byte ∈ line, isLineByte byte = true := by
  obtain ⟨first, pieces, isPackage, rfl, all⟩ := mem_packagesExpression_iff.mp accepted
  intro byte mem
  rcases List.mem_cons.mp mem with rfl | later
  · simp [isLineByte, isVersionByte_of_isPackageByte isPackage]
  · obtain ⟨piece, piece_mem, mem⟩ := List.mem_flatten.mp later
    cases all piece piece_mem with
    | letter letter accepted =>
        rw [List.mem_singleton.mp mem]
        simp [isLineByte, isVersionByte_of_isPackageByte accepted]
    | blank =>
        rw [List.mem_singleton.mp mem]
        rfl
    | version version nonempty accepted =>
        rcases List.mem_cons.mp mem with rfl | inside
        · rfl
        · simp [isLineByte, accepted byte inside]

end Neighbours

section Words

open ShellWords (IsPlainWord isOrdinary isBlank unquotedWord)

variable {line word : ByteString}

theorem isOrdinary_of_isLineByte {byte : UInt8} (accepted : isLineByte byte = true) :
    (isBlank byte = decide (byte = 32)) ∧ (byte ≠ 32 → isOrdinary byte = true) ∧ byte ≠ 35 ∧
      byte ∉ ([42, 63, 91] : List UInt8) := by
  revert byte
  decide +kernel

theorem ends_of_mem_split (accepted : IsAccepted line) (mem : word ∈ split line 32) :
    word.head? ≠ some 126 ∧ ∃ byte ∈ word, byte ≠ 61 := by
  obtain ⟨before, behind, before_eq, behind_eq, inside⟩ := Words.delimited_of_mem mem 32 32
  have blank : before = 32 ∧ behind = 32 := by
    simpa using And.intro before_eq behind_eq
  obtain ⟨rfl, rfl⟩ := blank
  have chain := List.IsChain.infix (isChain_of_isAccepted accepted) inside
  have nonempty := (Words.isWord_of_mem mem).1.1
  constructor
  · intro tilde
    obtain ⟨others, rfl⟩ := List.head?_eq_some_iff.mp tilde
    rw [List.cons_append, List.isChain_cons_cons] at chain
    exact absurd rfl (chain.1.1 rfl)
  · refine ⟨word.getLast nonempty, List.getLast_mem nonempty, fun equals => ?_⟩
    have last : List.IsChain MayFollow [word.getLast nonempty, 32] := by
      refine List.IsChain.infix chain (List.IsSuffix.isInfix ⟨32 :: word.dropLast, ?_⟩)
      have parts := List.dropLast_append_getLast nonempty
      conv_rhs => rw [← parts]
      simp
    rw [List.isChain_pair] at last
    have version := last.2 equals
    cases version

theorem isLiteral_of_mem_split (accepted : IsAccepted line) (mem : word ∈ split line 32) :
    IsPlainWord word := by
  have isWord := Words.isWord_of_mem mem
  have lineBytes : ∀ byte ∈ word, isLineByte byte = true :=
    fun byte byte_mem => isLineByte_of_isAccepted accepted byte (isWord.2.subset byte_mem)
  refine ⟨⟨isWord.1.1, fun byte first => ⟨?_, ?_⟩, fun byte byte_mem => ?_⟩, ?_⟩
  · exact (isOrdinary_of_isLineByte (lineBytes byte (List.mem_of_mem_head? first))).2.2.1
  · rintro rfl
    exact (ends_of_mem_split accepted mem).1 first
  · refine (isOrdinary_of_isLineByte (lineBytes byte byte_mem)).2.1 ?_
    simpa using isWord.1.2 byte byte_mem
  · exact ShellWords.isPattern_unquotedWord fun byte byte_mem =>
      (isOrdinary_of_isLineByte (lineBytes byte byte_mem)).2.2.2

theorem firstPart_of_mem_split (accepted : IsAccepted line) (mem : word ∈ split line 32) :
    firstPart word = some ((word.dropWhile (· = 61)).takeWhile (· ≠ 61)) := by
  obtain ⟨byte, byte_mem, differs⟩ := (ends_of_mem_split accepted mem).2
  have some_part : word.dropWhile (· = 61) ≠ [] := by
    rw [ne_eq, List.dropWhile_eq_nil_iff]
    intro all
    exact differs (by simpa using all byte byte_mem)
  rw [firstPart, split, ← List.head?_eq_getElem?, Words.head?_words, if_neg some_part]
  simp

theorem simpleCommand_updateCommand (libraries : Libraries) (accepted : IsAccepted line) :
    simpleCommand (updateCommand libraries.withRegex line) =
      some ([bytes "apt-get", bytes "install"] ++ split line 32 ++
        [bytes "-y", bytes "--allow-downgrades", bytes "--auto-remove"]) := by
  have lineBytes := isLineByte_of_isAccepted accepted
  have noDollar : 36 ∉ line := fun mem => absurd (lineBytes 36 mem) (by decide)
  have template : commandExecuteUpdate = bytes "apt-get install " ++
      (bytes "$value" ++ bytes " -y --allow-downgrades --auto-remove") := by
    rw [commandExecuteUpdate]
    repeat rw [bytes_ofList]
    decide
  have found : Substrings.search (bytes "$value") (bytes "apt-get install " ++
      (bytes "$value" ++ bytes " -y --allow-downgrades --auto-remove")) =
        some (bytes "$value" ++ bytes " -y --allow-downgrades --auto-remove") ∧
      Substrings.search (bytes "$value") (bytes " -y --allow-downgrades --auto-remove") = none := by
    repeat rw [bytes_ofList]
    decide
  have command_eq : updateCommand libraries.withRegex line =
      bytes "apt-get install " ++ (line ++ bytes " -y --allow-downgrades --auto-remove") := by
    have replaced : updateCommand libraries.withRegex line =
        Formats.replace (bytes "$value") line commandExecuteUpdate := rfl
    rw [replaced, template, Formats.replace_once (by decide) found.1 found.2,
      Formats.expand_of_notMem noDollar]
  have words_eq : Words.words isBlank (updateCommand libraries.withRegex line) =
      [bytes "apt-get", bytes "install"] ++ split line 32 ++
        [bytes "-y", bytes "--allow-downgrades", bytes "--auto-remove"] := by
    have install : bytes "apt-get install " = bytes "apt-get install" ++ [32] := by decide
    have options : bytes " -y --allow-downgrades --auto-remove" =
        32 :: bytes "-y --allow-downgrades --auto-remove" := by
      repeat rw [bytes_ofList]
      decide
    rw [command_eq, install, options, List.append_assoc, List.singleton_append,
      Words.words_append_cons _ _ (by decide), Words.words_append_cons _ _ (by decide),
      ← List.append_assoc]
    congr 1
    congr 1
    exact Words.words_congr fun byte mem => (isOrdinary_of_isLineByte (lineBytes byte mem)).1
  have words_plain : ∀ word ∈ Words.words isBlank (updateCommand libraries.withRegex line),
      IsPlainWord word := by
    rw [words_eq]
    intro word mem
    rw [List.mem_append, List.mem_append] at mem
    rcases mem with (fixed | inside) | fixed
    · revert word
      repeat rw [bytes_ofList]
      decide +kernel
    · exact isLiteral_of_mem_split accepted inside
    · revert word
      repeat rw [bytes_ofList]
      decide +kernel
  have shellWords : ShellWords.words (updateCommand libraries.withRegex line) =
      some ((Words.words isBlank (updateCommand libraries.withRegex line)).map unquotedWord) := by
    have fixed_ordinary :
        (∀ byte ∈ bytes "apt-get install ", isBlank byte = false → isOrdinary byte = true) ∧
          ∀ byte ∈ bytes " -y --allow-downgrades --auto-remove",
            isBlank byte = false → isOrdinary byte = true := by
      repeat rw [bytes_ofList]
      decide +kernel
    refine ShellWords.words_eq_map_words ?_ fun word mem => (words_plain word mem).1.start
    rw [command_eq]
    intro byte mem letter
    rw [List.mem_append, List.mem_append] at mem
    rcases mem with fixed | inside | fixed
    · exact fixed_ordinary.1 byte fixed letter
    · have here := isOrdinary_of_isLineByte (lineBytes byte inside)
      refine here.2.1 fun blank => ?_
      rw [here.1, blank] at letter
      cases letter
    · exact fixed_ordinary.2 byte fixed letter
  rw [ShellWords.simpleCommand_eq_some_iff]
  refine ⟨_, shellWords, ?_, ?_⟩
  · rw [words_eq] at words_plain ⊢
    exact (ShellWords.arePlain_map_unquotedWord (by decide +kernel)).mpr
      fun word mem => (words_plain word mem).2
  · rw [words_eq, ShellWords.map_text_unquotedWord]

end Words

section Names

open ShellWords (IsPlainWord)

variable {line word name : ByteString}

/-- The first part of a word: what is behind its leading equals signs, up to the next one. -/
def partOfWord (word : ByteString) : ByteString :=
  (word.dropWhile (· = 61)).takeWhile (· ≠ 61)

/-- A word whose first part is more than hyphens, and is no home directory. -/
def NamesPackage (word : ByteString) : Prop :=
  (partOfWord word).head? ≠ some 126 ∧ ∃ byte ∈ partOfWord word, byte ≠ 45

theorem namesOfLine_of_isAccepted (accepted : IsAccepted line) :
    namesOfLine line = (split line 32).map fun word => trimEnd (partOfWord word) 45 := by
  rw [namesOfLine, ← List.filterMap_eq_map]
  refine List.filterMap_congr fun word mem => ?_
  rw [firstPart_of_mem_split accepted mem]
  rfl

theorem trimEnd_ne_nil_iff : trimEnd name 45 ≠ [] ↔ ∃ byte ∈ name, byte ≠ 45 := by
  rw [trimEnd, ne_eq, List.rdropWhile_eq_nil_iff]
  simp

theorem head?_trimEnd (nonempty : trimEnd name 45 ≠ []) : (trimEnd name 45).head? = name.head? := by
  obtain ⟨behind, parts⟩ := List.rdropWhile_prefix (p := (· = (45 : UInt8))) (l := name)
  rw [trimEnd] at nonempty ⊢
  conv_rhs => rw [← parts, List.head?_append_of_ne_nil _ nonempty]

theorem namesPackage_iff : NamesPackage word ↔
    trimEnd (partOfWord word) 45 ≠ [] ∧ (trimEnd (partOfWord word) 45).head? ≠ some 126 := by
  rw [NamesPackage, ← trimEnd_ne_nil_iff, and_comm]
  refine and_congr_right fun nonempty => ?_
  rw [head?_trimEnd nonempty]

theorem isVersionByte_of_mem_name (accepted : IsAccepted line) (mem : word ∈ split line 32) :
    ∀ byte ∈ trimEnd (partOfWord word) 45, isVersionByte byte = true := by
  intro byte byte_mem
  have in_part : byte ∈ partOfWord word := (List.rdropWhile_prefix _ _).subset byte_mem
  have in_word : byte ∈ word := (List.dropWhile_suffix _).subset (List.takeWhile_subset _ in_part)
  have isWord := Words.isWord_of_mem mem
  have differs : byte ≠ 61 := by simpa using List.mem_takeWhile_imp in_part
  have letter : byte ≠ 32 := by simpa using isWord.1.2 byte in_word
  have lineByte := isLineByte_of_isAccepted accepted byte (isWord.2.subset in_word)
  simpa [isLineByte, differs, letter] using lineByte

theorem policyCommand_eq (libraries : Libraries)
    (nameBytes : ∀ byte ∈ name, isVersionByte byte = true) :
    policyCommand libraries.withRegex name =
      bytes "apt-cache policy " ++ (name ++ bytes " | grep Installed") := by
  have noDollar : 36 ∉ name := fun mem => absurd (nameBytes 36 mem) (by decide)
  have template : commandGetInstalledPackageVersion =
      bytes "apt-cache policy " ++ (bytes "$value" ++ bytes " | grep Installed") := by
    rw [commandGetInstalledPackageVersion]
    repeat rw [bytes_ofList]
    decide
  have found : Substrings.search (bytes "$value") (bytes "apt-cache policy " ++
      (bytes "$value" ++ bytes " | grep Installed")) =
        some (bytes "$value" ++ bytes " | grep Installed") ∧
      Substrings.search (bytes "$value") (bytes " | grep Installed") = none := by
    repeat rw [bytes_ofList]
    decide
  have replaced : policyCommand libraries.withRegex name =
      Formats.replace (bytes "$value") name commandGetInstalledPackageVersion := rfl
  rw [replaced, template, Formats.replace_once (by decide) found.1 found.2,
    Formats.expand_of_notMem noDollar]

theorem isOrdinary_of_isVersionByte {byte : UInt8} (accepted : isVersionByte byte = true) :
    ShellWords.isOrdinary byte = true ∧ byte ≠ 35 ∧ byte ∉ ([42, 63, 91] : List UInt8) := by
  have lineByte : isLineByte byte = true := by simp [isLineByte, accepted]
  have here := isOrdinary_of_isLineByte lineByte
  exact ⟨here.2.1 (not_special_of_isVersionByte accepted).1, here.2.2⟩

/-- The command that asks for the version of a package asks for that package, unless the name is
empty or is taken for a home directory. -/
theorem pipeline_policyCommand_iff (libraries : Libraries)
    (nameBytes : ∀ byte ∈ name, isVersionByte byte = true) :
    pipeline (policyCommand libraries.withRegex name) =
        some [[bytes "apt-cache", bytes "policy", name], [bytes "grep", bytes "Installed"]] ↔
      name ≠ [] ∧ name.head? ≠ some 126 := by
  have command_eq : policyCommand libraries.withRegex name =
      List.intercalate [32] [bytes "apt-cache", bytes "policy", name] ++ 32 :: 124 :: 32 ::
        List.intercalate [32] [bytes "grep", bytes "Installed"] := by
    have front : bytes "apt-cache policy " = bytes "apt-cache" ++ [32] ++ (bytes "policy" ++ [32]) := by
      repeat rw [bytes_ofList]
      decide
    have behind : bytes " | grep Installed" =
        32 :: 124 :: 32 :: (bytes "grep" ++ ([32] ++ bytes "Installed")) := by
      repeat rw [bytes_ofList]
      decide
    rw [policyCommand_eq libraries nameBytes, front, behind]
    simp [List.intercalate_cons_cons]
  have names : ∀ word ∈ [bytes "apt-cache", bytes "grep"],
      (ShellWords.isReserved (ShellWords.unquotedWord word) ||
        ShellWords.isAssignment (ShellWords.unquotedWord word)) = false := by
    repeat rw [bytes_ofList]
    decide
  rw [command_eq, ShellWords.pipeline_intercalate_iff (names _ (by simp)) (names _ (by simp))]
  constructor
  · rintro ⟨plain, -⟩
    have here := (plain name (by simp)).1
    exact ⟨here.nonempty, fun tilde => (here.start 126 tilde).2 rfl⟩
  · rintro ⟨nonempty, noTilde⟩
    have name_plain : IsPlainWord name := by
      refine ⟨⟨nonempty, fun byte first => ⟨?_, ?_⟩,
        fun byte mem => (isOrdinary_of_isVersionByte (nameBytes byte mem)).1⟩, ?_⟩
      · have mem := List.mem_of_mem_head? first
        exact (isOrdinary_of_isVersionByte (nameBytes byte mem)).2.1
      · rintro rfl
        exact noTilde first
      · exact ShellWords.isPattern_unquotedWord fun byte mem =>
          (isOrdinary_of_isVersionByte (nameBytes byte mem)).2.2
    simp only [List.forall_mem_cons, List.not_mem_nil, false_implies, implies_true, and_true]
    refine ⟨⟨?_, ?_, name_plain⟩, ?_, ?_⟩
    all_goals
      repeat rw [bytes_ofList]
      decide +kernel

theorem recordPackagesNames_eq_zero_iff (libraries : Libraries) {lines names : List ByteString}
    {progress : Progress} :
    (recordPackagesNames libraries.withRegex lines names progress).1 = 0 ↔
      ∀ line ∈ lines, IsAccepted line := by
  induction lines generalizing names progress with
  | nil => simp [recordPackagesNames]
  | cons line rest ih =>
      rw [recordPackagesNames, List.forall_mem_cons, ← isSome_regexMatch_iff libraries]
      split
      next accepted => rw [ih, and_iff_right accepted]
      next refused =>
        refine iff_of_false ?_ fun all => refused all.1
        have failed : einval ≠ 0 := by decide
        exact failed

theorem names_of_recordPackagesNames (libraries : Libraries) {lines names : List ByteString}
    {progress : Progress}
    (accepted : (recordPackagesNames libraries.withRegex lines names progress).1 = 0) :
    (recordPackagesNames libraries.withRegex lines names progress).2.1 =
      names ++ lines.flatMap namesOfLine := by
  induction lines generalizing names progress with
  | nil => simp [recordPackagesNames]
  | cons line rest ih =>
      rw [recordPackagesNames] at accepted ⊢
      split at accepted
      next matched =>
        rw [if_pos matched, ih accepted, List.flatMap_cons, List.append_assoc]
      next refused =>
        have failed : einval ≠ 0 := by decide
        exact absurd accepted failed

/-- The commands for a list of packages that is accepted have no other words than the lines and the
names, if each word of the lines names a package. The part in front of the equals sign is always
there. -/
theorem commands_of_recordPackagesNames_iff (libraries : Libraries) {lines : List ByteString}
    {progress : Progress}
    (accepted : (recordPackagesNames libraries.withRegex lines [] progress).1 = 0) :
    ((∀ machine progress line command,
        (line, command) ∈ (runUpdates libraries.withRegex machine lines progress).2 →
        simpleCommand command = some ([bytes "apt-get", bytes "install"] ++ split line 32 ++
          [bytes "-y", bytes "--allow-downgrades", bytes "--auto-remove"])) ∧
      (∀ rawVersion name command,
        (name, command) ∈ (getReportedPackages libraries.withRegex rawVersion
          (recordPackagesNames libraries.withRegex lines [] progress).2.1 []).2 →
        pipeline command =
          some [[bytes "apt-cache", bytes "policy", name], [bytes "grep", bytes "Installed"]]) ∧
      ∀ line ∈ lines, ∀ element ∈ split line 32, (firstPart element).isSome = true) ↔
      ∀ line ∈ lines, ∀ element ∈ split line 32, NamesPackage element := by
  have names_eq := names_of_recordPackagesNames libraries accepted
  have lines_accepted := (recordPackagesNames_eq_zero_iff libraries).mp accepted
  have name_iff : ∀ line ∈ lines, ∀ element ∈ split line 32,
      pipeline (policyCommand libraries.withRegex (trimEnd (partOfWord element) 45)) =
          some [[bytes "apt-cache", bytes "policy", trimEnd (partOfWord element) 45],
            [bytes "grep", bytes "Installed"]] ↔ NamesPackage element := by
    intro line line_mem element mem
    rw [namesPackage_iff]
    exact pipeline_policyCommand_iff libraries
      (isVersionByte_of_mem_name (lines_accepted line line_mem) mem)
  have name_mem : ∀ name, name ∈ lines.flatMap namesOfLine ↔
      ∃ line ∈ lines, ∃ element ∈ split line 32, trimEnd (partOfWord element) 45 = name := by
    intro name
    rw [List.mem_flatMap]
    refine exists_congr fun line => and_congr_right fun line_mem => ?_
    rw [namesOfLine_of_isAccepted (lines_accepted line line_mem), List.mem_map]
  rw [names_eq, List.nil_append]
  constructor
  · rintro ⟨-, reported, -⟩ line line_mem element mem
    rw [← name_iff line line_mem element mem]
    refine reported (fun _ => []) _ _ ((mem_getReportedPackages_iff _).mpr ⟨?_, by simp, rfl⟩)
    exact (name_mem _).mpr ⟨line, line_mem, element, mem, rfl⟩
  · intro named
    refine ⟨?_, ?_, ?_⟩
    · intro machine progress line command mem
      obtain ⟨line_mem, rfl⟩ := mem_runUpdates _ mem
      exact simpleCommand_updateCommand libraries (lines_accepted line line_mem)
    · intro rawVersion name command mem
      obtain ⟨recorded, -, rfl⟩ := (mem_getReportedPackages_iff _).mp mem
      obtain ⟨line, line_mem, element, element_mem, rfl⟩ := (name_mem name).mp recorded
      exact (name_iff line line_mem element element_mem).mpr
        (named line line_mem element element_mem)
    · intro line line_mem element mem
      rw [firstPart_of_mem_split (lines_accepted line line_mem) mem]
      rfl

section Examples

theorem isAccepted_of_pieces {byte : UInt8} (accepted : isPackageByte byte = true)
    (pieces : List ByteString) (all : ∀ piece ∈ pieces, IsPiece piece)
    (parts : line = byte :: pieces.flatten) : IsAccepted line :=
  mem_packagesExpression_iff.mpr ⟨byte, pieces, accepted, parts, all⟩

/-- The line `sl cowsay=3.03`. -/
def lineOfTwo : ByteString := bytes "sl cowsay=3.03"

theorem isAccepted_lineOfTwo : IsAccepted lineOfTwo := by
  have letters : ∀ piece ∈ (bytes "cowsay").map fun byte => [byte], IsPiece piece := by
    intro piece mem
    obtain ⟨byte, byte_mem, rfl⟩ := List.mem_map.mp mem
    refine .letter byte ?_
    revert byte
    rw [bytes_ofList]
    decide +kernel
  have first : isPackageByte 115 = true := by decide
  refine isAccepted_of_pieces first ([[108], [32]] ++
    ((bytes "cowsay").map (fun byte => [byte]) ++ [61 :: bytes "3.03"])) ?_ (by decide)
  rw [List.forall_mem_append, List.forall_mem_append]
  refine ⟨?_, letters, ?_⟩
  · rw [List.forall_mem_cons, List.forall_mem_singleton]
    exact ⟨.letter 108 (by decide), .blank⟩
  · rw [List.forall_mem_singleton]
    refine .version (bytes "3.03") (by decide) ?_
    rw [bytes_ofList]
    decide +kernel

/-- The line `sl =~root`. -/
def lineOfHome : ByteString := bytes "sl =~root"

theorem isAccepted_lineOfHome : IsAccepted lineOfHome := by
  have first : isPackageByte 115 = true := by decide
  refine isAccepted_of_pieces first [[108], [32], 61 :: bytes "~root"] ?_ (by decide)
  rw [List.forall_mem_cons, List.forall_mem_cons, List.forall_mem_singleton]
  refine ⟨.letter 108 (by decide), .blank, .version (bytes "~root") (by decide) ?_⟩
  rw [bytes_ofList]
  decide +kernel

instance (word : ByteString) : Decidable (NamesPackage word) :=
  inferInstanceAs (Decidable (_ ∧ _))

/-- The names of two packages are asked for, and both are installed. -/
theorem commands_of_recordPackagesNames_two :
    (recordPackagesNames refusingLibraries.withRegex [lineOfTwo] [] ⟨.initial, []⟩).1 = 0 ∧
      ∀ rawVersion name command,
        (name, command) ∈ (getReportedPackages refusingLibraries.withRegex rawVersion
          (recordPackagesNames refusingLibraries.withRegex [lineOfTwo] [] ⟨.initial, []⟩).2.1
            []).2 →
        pipeline command =
          some [[bytes "apt-cache", bytes "policy", name], [bytes "grep", bytes "Installed"]] := by
  have accepted : (recordPackagesNames refusingLibraries.withRegex [lineOfTwo] []
      ⟨.initial, []⟩).1 = 0 :=
    (recordPackagesNames_eq_zero_iff _).mpr (by simpa using isAccepted_lineOfTwo)
  have named : ∀ line ∈ [lineOfTwo], ∀ element ∈ split line 32, NamesPackage element := by
    decide +kernel
  exact ⟨accepted,
    ((commands_of_recordPackagesNames_iff refusingLibraries accepted).mpr named).2.1⟩

/-- The version that is asked for is the one of a home directory. -/
theorem commands_of_recordPackagesNames_home :
    (recordPackagesNames refusingLibraries.withRegex [lineOfHome] [] ⟨.initial, []⟩).1 = 0 ∧
      (bytes "~root", bytes "apt-cache policy ~root | grep Installed") ∈
        (getReportedPackages refusingLibraries.withRegex (fun _ => [])
          (recordPackagesNames refusingLibraries.withRegex [lineOfHome] [] ⟨.initial, []⟩).2.1
            []).2 ∧
      pipeline (bytes "apt-cache policy ~root | grep Installed") = none := by
  have accepted : (recordPackagesNames refusingLibraries.withRegex [lineOfHome] []
      ⟨.initial, []⟩).1 = 0 :=
    (recordPackagesNames_eq_zero_iff _).mpr (by simpa using isAccepted_lineOfHome)
  refine ⟨accepted, ?_, by decide +kernel⟩
  rw [names_of_recordPackagesNames _ accepted, mem_getReportedPackages_iff]
  refine ⟨by decide +kernel, by simp, ?_⟩
  rw [policyCommand_eq _ (by decide +kernel)]
  decide +kernel

end Examples

end Names

end OsConfig.Pmc
