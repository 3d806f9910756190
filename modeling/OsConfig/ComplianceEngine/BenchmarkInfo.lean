import OsConfig.ComplianceEngine.DistributionInfo
import OsConfig.Library.Glob

/-!
# Benchmarks and the distributions they apply to

The key of a payload names a benchmark and the versions of a distribution it is
for, as a glob pattern. When the pattern does not match the machine, a line for
the override file is suggested that is to make it match: the pattern with its
wildcards replaced. The replacement keeps backslashes, which the pattern reads
as escapes, so it only works for versions without one.
-/

namespace OsConfig.ComplianceEngine

open ByteString

section Fnmatch

open Glob (Token)

/-- What a character of a pattern stands for, escapes and brackets aside. -/
def globToken (byte : UInt8) : Token UInt8 :=
  if byte = 42 then .star else if byte = 63 then .single else .letter byte

/-- The tokens of a pattern of `fnmatch` without brackets; a pattern that ends in a backslash
matches nothing. -/
def globTokens (pattern : ByteString) : Option (List (Token UInt8)) :=
  match pattern with
  | [] => some []
  | byte :: rest =>
      if byte = 92 then
        match rest with
        | [] => none
        | next :: rest => (globTokens rest).map (.letter next :: ·)
      else
        (globTokens rest).map (globToken byte :: ·)

/-- `fnmatch(pattern, text, 0) == 0` in the C locale, for a pattern without brackets. -/
def fnmatch (pattern text : ByteString) : Bool :=
  match globTokens pattern with
  | none => false
  | some tokens => Glob.accepts tokens text

end Fnmatch

/-- The characters of `ValidateGlobbing`; `strchr` also finds the terminator. -/
def refusedGlobbing : List UInt8 := [91, 93, 123, 125, 0]

/-- What `CISBenchmarkInfo::Parse` accepts has no bracket in its version. -/
structure CISBenchmarkInfo where
  distribution : LinuxDistribution
  version : ByteString
  benchmarkVersion : ByteString
  sectionName : ByteString
  validGlobbing : ∀ byte ∈ version, byte ∉ refusedGlobbing
  deriving DecidableEq

namespace CISBenchmarkInfo

/-- `std::getline` with a delimiter: the token and what follows the delimiter. -/
def getline (delimiter : UInt8) (text : ByteString) : Option (ByteString × ByteString) :=
  if text = [] then none
  else some (text.takeWhile (· ≠ delimiter), (text.dropWhile (· ≠ delimiter)).drop 1)

inductive BenchmarkType where
  | cis
  deriving DecidableEq

def parseBenchmarkType (benchmarkType : ByteString) : Result BenchmarkType :=
  if benchmarkType = bytes "cis" then .ok .cis
  else .error
    { message := bytes "Unsupported benchmark type: '" ++ benchmarkType ++ bytes "'"
      code := Errno.EINVAL }

/-- A token that `Parse` asks for, or its error. -/
def nextToken (delimiter : UInt8) (missing : String) (text : ByteString) :
    Result (ByteString × ByteString) :=
  match getline delimiter text with
  | none => .error { message := bytes missing, code := Errno.EINVAL }
  | some found => .ok found

/-- A token that must not be empty. -/
def nextNonempty (delimiter : UInt8) (missing : String) (text : ByteString) :
    Result (ByteString × ByteString) := do
  let (token, rest) ← nextToken delimiter missing text
  if token = [] then
    .error { message := bytes missing, code := Errno.EINVAL }
  else
    return (token, rest)

def parse (payloadKey : ByteString) : Result CISBenchmarkInfo := do
  let (start, text) ← nextToken 47 "Invalid payload key format: must start with '/'" payloadKey
  if start ≠ [] then
    .error
      { message := bytes "Invalid payload key format: must start with '/'", code := Errno.EINVAL }
  else
    let (benchmarkType, text) ←
      nextToken 47 "Invalid payload key format: missing benchmark type" text
    let _ ← parseBenchmarkType benchmarkType
    let (distributionStr, text) ←
      nextToken 47 "Invalid CIS benchmark payload key format: missing distribution" text
    let distribution ← DistributionInfo.parseLinuxDistribution distributionStr
    let (version, text) ←
      nextNonempty 47 "Invalid CIS benchmark payload key format: missing distribution version" text
    if valid : ∀ byte ∈ version, byte ∉ refusedGlobbing then
      let (benchmarkVersion, text) ←
        nextNonempty 47 "Invalid CIS benchmark payload key format: missing benchmark version" text
      let (sectionName, _) ←
        nextNonempty 10 "Invalid CIS benchmark payload key format: missing benchmark section" text
      return { distribution, version, benchmarkVersion, sectionName, validGlobbing := valid }
    else
      .error
        { message := bytes "Invalid benchmark version: " ++ version ++
            bytes ". Globbing characters [ ] \x7b \x7d are not allowed."
          code := Errno.EINVAL }

/-- `CISBenchmarkInfo::Match`. -/
def matchesInfo (benchmark : CISBenchmarkInfo) (info : DistributionInfo) : Bool :=
  info.distribution = benchmark.distribution && fnmatch benchmark.version.cString info.version.cString

/-- The loop of `SanitizedVersion`. -/
def sanitize (version : ByteString) : ByteString :=
  match version with
  | [] => []
  | byte :: rest =>
      if byte = 42 then sanitize rest
      else if byte = 63 then 120 :: sanitize rest
      else byte :: sanitize rest

def sanitizedVersion (benchmark : CISBenchmarkInfo) : ByteString :=
  sanitize benchmark.version

/-- The info whose line `ComplianceEngineCheckApplicability` suggests for the override file. -/
def overridden (benchmark : CISBenchmarkInfo) (current : DistributionInfo) : DistributionInfo :=
  { current with distribution := benchmark.distribution, version := benchmark.sanitizedVersion }

/-- `ComplianceEngineCheckApplicability` for an accepted key: 0 or an error, with the line that
is suggested. -/
def checkApplicability (benchmark : CISBenchmarkInfo) (current : DistributionInfo) :
    ℤ × Option ByteString :=
  if benchmark.matchesInfo current then (0, none)
  else (Errno.EINVAL, some (benchmark.overridden current).toText)

/-- The pattern matches its sanitized form, and with the suggested line in the override file the
benchmark matches. -/
def AdviceSound (benchmark : CISBenchmarkInfo) : Prop :=
  fnmatch benchmark.version benchmark.sanitizedVersion = true ∧
    ∀ current line ending, (benchmark.checkApplicability current).2 = some line →
      (∀ byte ∈ ending, isSpace byte) →
      ∃ info, DistributionInfo.parseOverrideFile DistributionInfo.defaultOverrideFilePath
          (some (line ++ ending)) = .ok info ∧
        benchmark.matchesInfo info = true

/-- A version without backslashes, white space and quotes. -/
def PlainVersion (version : ByteString) : Prop :=
  ∀ byte ∈ version, byte ≠ 92 ∧ DistributionInfo.IsValueByte byte

section Patterns

open Glob (Token)

/-- The beginning of a pattern up to its first backslash. -/
theorem globTokens_append {before : ByteString} (plain : 92 ∉ before) (rest : ByteString) :
    globTokens (before ++ rest) = (globTokens rest).map (before.map globToken ++ ·) := by
  induction before with
  | nil => simp
  | cons byte others ih =>
      simp only [List.mem_cons, not_or] at plain
      rw [List.cons_append, globTokens.eq_def]
      simp only [if_neg (Ne.symm plain.1)]
      rw [ih plain.2, Option.map_map]
      rfl

theorem globTokens_of_plain {pattern : ByteString} (plain : 92 ∉ pattern) :
    globTokens pattern = some (pattern.map globToken) := by
  have tokens_eq := globTokens_append plain []
  rw [List.append_nil] at tokens_eq
  rw [tokens_eq]
  simp [globTokens]

/-- A character without a special meaning stands for itself, escaped or not. -/
theorem letter_mem_globTokens {byte : UInt8} (ordinary : byte ≠ 92 ∧ byte ≠ 42 ∧ byte ≠ 63)
    {pattern : ByteString} {tokens : List (Token UInt8)} (mem : byte ∈ pattern)
    (tokens_eq : globTokens pattern = some tokens) : Token.letter byte ∈ tokens := by
  rcases ordinary with ⟨noEscape, noStar, noSingle⟩
  fun_induction globTokens pattern generalizing tokens with
  | case1 => simp at mem
  | case2 => simp at tokens_eq
  | case3 next rest ih =>
      simp only [Option.map_eq_some_iff] at tokens_eq
      rcases tokens_eq with ⟨others, others_eq, rfl⟩
      simp only [List.mem_cons, noEscape, false_or] at mem
      rcases mem with rfl | later
      · simp
      · exact List.mem_cons_of_mem _ (ih later others_eq)
  | case4 first rest _ ih =>
      simp only [Option.map_eq_some_iff] at tokens_eq
      rcases tokens_eq with ⟨others, others_eq, rfl⟩
      rcases List.mem_cons.mp mem with rfl | later
      · simp [globToken, noStar, noSingle]
      · exact List.mem_cons_of_mem _ (ih later others_eq)

/-- There are as many tokens as characters, less one for every escape. -/
theorem length_globTokens {pattern : ByteString} {tokens : List (Token UInt8)}
    (tokens_eq : globTokens pattern = some tokens) :
    tokens.length ≤ pattern.length ∧ (92 ∈ pattern → tokens.length < pattern.length) := by
  fun_induction globTokens pattern generalizing tokens with
  | case1 =>
      rw [Option.some.injEq] at tokens_eq
      simp [← tokens_eq]
  | case2 => simp at tokens_eq
  | case3 next rest ih =>
      simp only [Option.map_eq_some_iff] at tokens_eq
      rcases tokens_eq with ⟨others, others_eq, rfl⟩
      have shorter := (ih others_eq).1
      simp only [List.length_cons]
      omega
  | case4 first rest noEscape ih =>
      simp only [Option.map_eq_some_iff] at tokens_eq
      rcases tokens_eq with ⟨others, others_eq, rfl⟩
      rcases ih others_eq with ⟨le, lt⟩
      simp only [List.length_cons, List.mem_cons, Ne.symm noEscape, false_or]
      refine ⟨by omega, ?_⟩
      intro mem
      have := lt mem
      omega

theorem star_notMem_globTokens {pattern : ByteString} {tokens : List (Token UInt8)}
    (noStar : 42 ∉ pattern) (tokens_eq : globTokens pattern = some tokens) :
    Token.star ∉ tokens := by
  fun_induction globTokens pattern generalizing tokens with
  | case1 =>
      rw [Option.some.injEq] at tokens_eq
      simp [← tokens_eq]
  | case2 => simp at tokens_eq
  | case3 next rest ih =>
      simp only [Option.map_eq_some_iff] at tokens_eq
      rcases tokens_eq with ⟨others, others_eq, rfl⟩
      simp only [List.mem_cons, not_or] at noStar
      simp [ih noStar.2.2 others_eq]
  | case4 first rest _ ih =>
      simp only [Option.map_eq_some_iff] at tokens_eq
      rcases tokens_eq with ⟨others, others_eq, rfl⟩
      simp only [List.mem_cons, not_or] at noStar
      have first_ne : Token.star ≠ globToken first := by
        rw [globToken, if_neg (Ne.symm noStar.1)]
        split <;> simp
      simp [first_ne, ih noStar.2 others_eq]

theorem sanitize_append (before rest : ByteString) :
    sanitize (before ++ rest) = sanitize before ++ sanitize rest := by
  induction before with
  | nil => rfl
  | cons byte others ih =>
      rw [List.cons_append, sanitize, sanitize, ih]
      split
      · rfl
      · split <;> rfl

theorem length_sanitize {version : ByteString} (noStar : 42 ∉ version) :
    (sanitize version).length = version.length := by
  induction version with
  | nil => rfl
  | cons byte rest ih =>
      simp only [List.mem_cons, not_or] at noStar
      rw [sanitize, if_neg (Ne.symm noStar.1)]
      split <;> simp [ih noStar.2]

/-- Read without escapes, a pattern matches its sanitized form: a star stands for nothing. -/
theorem accepts_sanitize (version : ByteString) :
    Glob.accepts (version.map globToken) (sanitize version) = true := by
  induction version with
  | nil => rfl
  | cons byte rest ih =>
      rw [List.map_cons, globToken, sanitize]
      split
      · exact Glob.accepts_star_of_accepts ih
      · split
        · exact Glob.accepts_single_iff.mpr ⟨120, _, rfl, ih⟩
        · exact Glob.accepts_letter_iff.mpr ⟨_, rfl, ih⟩

theorem mem_sanitize {byte : UInt8} {version : ByteString} (mem : byte ∈ sanitize version) :
    byte = 120 ∨ byte ∈ version := by
  induction version with
  | nil => simp [sanitize] at mem
  | cons first rest ih =>
      rw [sanitize] at mem
      split at mem
      · exact (ih mem).imp_right (List.mem_cons_of_mem _)
      · split at mem
        · rcases List.mem_cons.mp mem with rfl | later
          · exact .inl rfl
          · exact (ih later).imp_right (List.mem_cons_of_mem _)
        · rcases List.mem_cons.mp mem with rfl | later
          · exact .inr (by simp)
          · exact (ih later).imp_right (List.mem_cons_of_mem _)

end Patterns

/-- The first backslash of a version either stands behind no star and escapes no backslash, or
there is no star at all. -/
def EscapesPlainly (version : ByteString) : Prop :=
  42 ∉ version ∨ ∀ before escaped after, version = before ++ 92 :: escaped :: after →
    92 ∉ before → 42 ∉ before ∧ escaped ≠ 92

open Glob (Token) in
/-- A version with such a backslash does not match its sanitized form. -/
theorem fnmatch_sanitize_of_escape {version : ByteString} (escapes : EscapesPlainly version)
    (escape : 92 ∈ version) : fnmatch version (sanitize version) = false := by
  rw [Bool.eq_false_iff]
  intro matched
  rw [fnmatch] at matched
  split at matched
  · cases matched
  · rename_i tokens tokens_eq
    rcases escapes with noStar | first
    · have lengths := Glob.length_of_accepts (star_notMem_globTokens noStar tokens_eq) matched
      have shorter := (length_globTokens tokens_eq).2 escape
      rw [length_sanitize noStar] at lengths
      omega
    · rcases List.eq_append_cons_of_mem escape with ⟨before, rest, rfl, plain⟩
      rw [globTokens_append plain] at tokens_eq
      cases rest with
      | nil => simp [globTokens] at tokens_eq
      | cons escaped after =>
          rcases first before escaped after rfl plain with ⟨noStar, escaped_ne⟩
          simp only [globTokens, if_true, Option.map_map, Option.map_eq_some_iff,
            Function.comp_apply] at tokens_eq
          rcases tokens_eq with ⟨others, -, rfl⟩
          have fixed : Token.star ∉ before.map globToken :=
            star_notMem_globTokens noStar (globTokens_of_plain plain)
          rcases Glob.accepts_append_of_star_notMem fixed matched with
            ⟨taken, left, text_eq, length_eq, left_accepted⟩
          rcases Glob.accepts_letter_iff.mp left_accepted with ⟨_, rfl, -⟩
          have sanitized_eq : sanitize (92 :: escaped :: after) =
              92 :: sanitize (escaped :: after) := by
            rw [sanitize, if_neg (by decide), if_neg (by decide)]
          rw [sanitize_append, sanitized_eq] at text_eq
          have lengths : (sanitize before).length = taken.length := by
            rw [length_sanitize noStar, length_eq, List.length_map]
          have heads := (List.append_inj text_eq lengths).2
          exact escaped_ne (List.cons.inj heads).1.symm

theorem cString_version (benchmark : CISBenchmarkInfo) :
    benchmark.version.cString = benchmark.version := by
  rw [cString, List.takeWhile_eq_self_iff]
  intro byte mem
  have allowed := benchmark.validGlobbing byte mem
  simp only [refusedGlobbing, List.mem_cons, not_or] at allowed
  simp [allowed.2.2.2.2.1]

theorem mem_of_matchesInfo {benchmark : CISBenchmarkInfo} {info : DistributionInfo}
    (matched : benchmark.matchesInfo info = true) {byte : UInt8}
    (ordinary : byte ≠ 92 ∧ byte ≠ 42 ∧ byte ≠ 63) (mem : byte ∈ benchmark.version) :
    byte ∈ info.version := by
  rw [matchesInfo, cString_version, Bool.and_eq_true, fnmatch] at matched
  have pattern_matched := matched.2
  split at pattern_matched
  · cases pattern_matched
  · rename_i tokens tokens_eq
    apply List.takeWhile_subset
    exact Glob.mem_of_accepts (letter_mem_globTokens ordinary mem tokens_eq) pattern_matched

/-- White space and quotes do not come through the override file. -/
theorem isValueByte_of_adviceSound {benchmark : CISBenchmarkInfo} (sound : benchmark.AdviceSound) :
    ∀ byte ∈ benchmark.version, DistributionInfo.IsValueByte byte := by
  intro byte mem
  by_contra foreign
  have ordinary : byte ≠ 92 ∧ byte ≠ 42 ∧ byte ≠ 63 := by
    refine ⟨?_, ?_, ?_⟩ <;> rintro rfl <;> exact foreign (by decide)
  have inapplicable : benchmark.matchesInfo {} = false := by
    rw [Bool.eq_false_iff]
    intro matched
    simpa using mem_of_matchesInfo matched ordinary mem
  have suggested : (benchmark.checkApplicability {}).2 = some (benchmark.overridden {}).toText := by
    simp [checkApplicability, inapplicable]
  rcases sound.2 {} _ [] suggested (by simp) with ⟨info, parsed, matched⟩
  exact foreign (DistributionInfo.parseOverrideFile_isValueByte parsed byte
    (mem_of_matchesInfo matched ordinary mem))

theorem adviceSound_of_plain {benchmark : CISBenchmarkInfo}
    (plain : PlainVersion benchmark.version) : benchmark.AdviceSound := by
  have noEscape : 92 ∉ benchmark.version := fun mem => (plain 92 mem).1 rfl
  have matched : fnmatch benchmark.version benchmark.sanitizedVersion = true := by
    rw [fnmatch, globTokens_of_plain noEscape]
    exact accepts_sanitize benchmark.version
  refine ⟨matched, ?_⟩
  intro current line ending suggested areSpaces
  have line_eq : line = (benchmark.overridden current).toText := by
    rw [checkApplicability] at suggested
    split at suggested
    · cases suggested
    · exact (Option.some.inj suggested).symm
  subst line_eq
  have valueBytes : ∀ byte ∈ benchmark.sanitizedVersion, DistributionInfo.IsValueByte byte := by
    intro byte mem
    rcases mem_sanitize mem with rfl | inVersion
    · decide
    · exact (plain byte inVersion).2
  have nulFree : benchmark.sanitizedVersion.cString = benchmark.sanitizedVersion := by
    rw [cString, List.takeWhile_eq_self_iff]
    intro byte mem
    rcases mem_sanitize mem with rfl | inVersion
    · decide
    · have kept := benchmark.cString_version
      rw [cString, List.takeWhile_eq_self_iff] at kept
      exact kept byte inVersion
  refine ⟨benchmark.overridden current,
    DistributionInfo.parseOverrideFile_toText _ _ valueBytes areSpaces, ?_⟩
  rw [matchesInfo, cString_version]
  simp only [overridden, decide_true, Bool.true_and, nulFree]
  exact matched

/-- The advice is sound for the versions of accepted keys that have no backslash, no white space
and no quote. White space and quotes always spoil it, and so does a backslash, unless it stands
behind a star or the first one escapes a backslash. -/
theorem adviceSound_of_parse {payloadKey : ByteString} {benchmark : CISBenchmarkInfo}
    (_parsed : parse payloadKey = .ok benchmark) :
    (PlainVersion benchmark.version → benchmark.AdviceSound) ∧
    (benchmark.AdviceSound →
      ∀ byte ∈ benchmark.version, DistributionInfo.IsValueByte byte) ∧
    (EscapesPlainly benchmark.version →
      (benchmark.AdviceSound ↔ PlainVersion benchmark.version)) := by
  refine ⟨adviceSound_of_plain, isValueByte_of_adviceSound, ?_⟩
  intro escapes
  refine ⟨?_, adviceSound_of_plain⟩
  intro sound byte mem
  refine ⟨?_, isValueByte_of_adviceSound sound byte mem⟩
  rintro rfl
  have refused := fnmatch_sanitize_of_escape escapes mem
  rw [← sanitizedVersion, sound.1] at refused
  cases refused

/-- A benchmark whose version is a pattern with both wildcards. -/
def wildcardBenchmark : CISBenchmarkInfo where
  distribution := .ubuntu
  version := bytes "foo?bar*baz"
  benchmarkVersion := bytes "v1.0.0"
  sectionName := bytes "x/y/z"
  validGlobbing := by decide +kernel

theorem parse_wildcardBenchmark :
    parse (bytes "/cis/ubuntu/foo?bar*baz/v1.0.0/x/y/z") = .ok wildcardBenchmark := by
  decide +kernel

theorem wildcardBenchmark_adviceSound :
    parse (bytes "/cis/ubuntu/foo?bar*baz/v1.0.0/x/y/z") = .ok wildcardBenchmark ∧
      wildcardBenchmark.AdviceSound :=
  ⟨parse_wildcardBenchmark,
    (adviceSound_of_parse parse_wildcardBenchmark).1 (by unfold PlainVersion; decide +kernel)⟩

/-- A benchmark whose version is a pattern with an escaped dot. -/
def escapedBenchmark : CISBenchmarkInfo where
  distribution := .almaLinux
  version := bytes "9\\.*"
  benchmarkVersion := bytes "v1.0.0"
  sectionName := bytes "x/y/z"
  validGlobbing := by decide +kernel

/-- The pattern of an accepted key that does not match its sanitized form. With the suggested
line in the override file the benchmark does not match either. -/
theorem escapedBenchmark_not_adviceSound :
    parse (bytes "/cis/almalinux/9\\.*/v1.0.0/x/y/z") = .ok escapedBenchmark ∧
      fnmatch escapedBenchmark.version escapedBenchmark.sanitizedVersion = false ∧
      (∃ line info, (escapedBenchmark.checkApplicability {}).2 = some line ∧
        DistributionInfo.parseOverrideFile DistributionInfo.defaultOverrideFilePath (some line) =
          .ok info ∧
        escapedBenchmark.matchesInfo info = false) ∧
      ¬ escapedBenchmark.AdviceSound := by
  have refused : fnmatch escapedBenchmark.version escapedBenchmark.sanitizedVersion = false := by
    decide
  have valueBytes : ∀ byte ∈ escapedBenchmark.sanitizedVersion,
      DistributionInfo.IsValueByte byte := by
    decide +kernel
  have parsed := DistributionInfo.parseOverrideFile_toText DistributionInfo.defaultOverrideFilePath
    (escapedBenchmark.overridden {}) valueBytes (show ∀ byte ∈ ([] : ByteString), _ by simp)
  rw [List.append_nil] at parsed
  refine ⟨by decide +kernel, refused, ⟨_, _, by decide +kernel, parsed, by decide +kernel⟩, ?_⟩
  intro sound
  rw [sound.1] at refused
  cases refused

end CISBenchmarkInfo

end OsConfig.ComplianceEngine
