import OsConfig.ComplianceEngine.BenchmarkInfo

/-!
# Payload keys and what is printed for them

The key is taken apart at its slashes, and its last part goes on to the end of
the line. An info is printed as the key that is read as it, unless one of its
parts is empty or contains what would end it.
-/

namespace OsConfig.ComplianceEngine.CISBenchmarkInfo

open Fallible (exists_of_bind_ok)

/-- `std::to_string` on a `BenchmarkType`. -/
def BenchmarkType.toText : BenchmarkType → ByteString
  | .cis => bytes "cis"

/-- `std::to_string` on a `CISBenchmarkInfo`. -/
def toText (benchmark : CISBenchmarkInfo) : ByteString :=
  bytes "/" ++ BenchmarkType.cis.toText ++ bytes "/" ++ benchmark.distribution.toText ++
    bytes "/" ++ benchmark.version ++ bytes "/" ++ benchmark.benchmarkVersion ++ bytes "/" ++
    benchmark.sectionName

/-- A part of a key that `Parse` can return when it reads up to the delimiter. -/
structure IsPart (delimiter : UInt8) (part : ByteString) : Prop where
  nonempty : part ≠ []
  unbroken : delimiter ∉ part

/-- The checks that `Parse` makes on the parts: none is empty, and the version has no brackets. -/
structure PassesChecks (benchmark : CISBenchmarkInfo) : Prop where
  version : benchmark.version ≠ []
  benchmarkVersion : benchmark.benchmarkVersion ≠ []
  sectionName : benchmark.sectionName ≠ []
  globbing : ∀ byte ∈ benchmark.version, byte ∉ refusedGlobbing

/-- Also no part contains what would end it in a key. -/
structure IsKeyInfo (benchmark : CISBenchmarkInfo) : Prop where
  version : IsPart 47 benchmark.version
  benchmarkVersion : IsPart 47 benchmark.benchmarkVersion
  sectionName : IsPart 10 benchmark.sectionName

section Parts

variable {delimiter : UInt8} {missing : String} {text token rest : ByteString}

theorem differs_of_unbroken (unbroken : delimiter ∉ token) :
    ∀ byte ∈ token, decide (byte ≠ delimiter) = true := by
  intro byte mem
  rw [decide_eq_true_iff]
  rintro rfl
  exact unbroken mem

theorem nextToken_append (unbroken : delimiter ∉ token) (missing : String) (rest : ByteString) :
    nextToken delimiter missing (token ++ delimiter :: rest) = .ok (token, rest) := by
  have kept := differs_of_unbroken unbroken
  have nonempty : token ++ delimiter :: rest ≠ [] := by simp
  have token_eq : (token ++ delimiter :: rest).takeWhile (· ≠ delimiter) = token := by
    rw [List.takeWhile_append_of_pos kept]
    simp
  have rest_eq : (token ++ delimiter :: rest).dropWhile (· ≠ delimiter) = delimiter :: rest := by
    rw [List.dropWhile_append_of_pos kept]
    simp
  rw [nextToken, getline, if_neg nonempty, token_eq, rest_eq]
  rfl

theorem nextNonempty_append (part : IsPart delimiter token) (missing : String) (rest : ByteString) :
    nextNonempty delimiter missing (token ++ delimiter :: rest) = .ok (token, rest) := by
  rw [nextNonempty, nextToken_append part.unbroken]
  exact if_neg part.nonempty

theorem nextNonempty_last (part : IsPart delimiter token) (missing : String) :
    nextNonempty delimiter missing token = .ok (token, []) := by
  have kept := differs_of_unbroken part.unbroken
  rw [nextNonempty, nextToken, getline, if_neg part.nonempty, List.takeWhile_eq_self_iff.mpr kept,
    List.dropWhile_eq_nil_iff.mpr kept]
  exact if_neg part.nonempty

theorem isPart_of_nextNonempty (found : nextNonempty delimiter missing text = .ok (token, rest)) :
    IsPart delimiter token := by
  unfold nextNonempty at found
  rcases exists_of_bind_ok found with ⟨⟨first, others⟩, next_eq, found⟩
  dsimp only at found
  split at found
  · cases found
  next nonempty =>
    cases found
    refine ⟨nonempty, fun mem => ?_⟩
    unfold nextToken getline at next_eq
    split at next_eq
    · cases next_eq
    next token_eq =>
      split at token_eq
      · cases token_eq
      · cases token_eq
        cases next_eq
        simpa using List.mem_takeWhile_imp mem

end Parts

theorem distribution_unbroken (distribution : LinuxDistribution) : 47 ∉ distribution.toText := by
  cases distribution <;> decide +kernel

/-- The parts of what was read from a key end where the key says so. -/
theorem isKeyInfo_of_parse {payloadKey : ByteString} {benchmark : CISBenchmarkInfo}
    (parsed : parse payloadKey = .ok benchmark) : IsKeyInfo benchmark := by
  unfold parse at parsed
  rcases exists_of_bind_ok parsed with ⟨⟨start, text⟩, -, parsed⟩
  dsimp only at parsed
  split at parsed
  · cases parsed
  · rcases exists_of_bind_ok parsed with ⟨⟨benchmarkType, text⟩, -, parsed⟩
    rcases exists_of_bind_ok parsed with ⟨type, -, parsed⟩
    rcases exists_of_bind_ok parsed with ⟨⟨distributionStr, text⟩, -, parsed⟩
    rcases exists_of_bind_ok parsed with ⟨distribution, -, parsed⟩
    rcases exists_of_bind_ok parsed with ⟨⟨version, text⟩, version_eq, parsed⟩
    dsimp only at parsed
    split at parsed
    · rcases exists_of_bind_ok parsed with ⟨⟨benchmarkVersion, text⟩, benchmarkVersion_eq, parsed⟩
      rcases exists_of_bind_ok parsed with ⟨⟨sectionName, text⟩, sectionName_eq, parsed⟩
      cases parsed
      exact ⟨isPart_of_nextNonempty version_eq, isPart_of_nextNonempty benchmarkVersion_eq,
        isPart_of_nextNonempty sectionName_eq⟩
    · cases parsed

theorem parse_toText {benchmark : CISBenchmarkInfo} (keyInfo : IsKeyInfo benchmark) :
    parse benchmark.toText = .ok benchmark := by
  have key_eq : benchmark.toText = [] ++ 47 :: (bytes "cis" ++ 47 :: (benchmark.distribution.toText ++
      47 :: (benchmark.version ++ 47 :: (benchmark.benchmarkVersion ++
        47 :: benchmark.sectionName)))) := by
    have slash : bytes "/" = [47] := by decide
    simp [toText, slash, BenchmarkType.toText]
  have cis : parseBenchmarkType (bytes "cis") = .ok .cis := rfl
  rw [key_eq, parse, nextToken_append (by simp)]
  simp only [bind, Except.bind]
  rw [if_neg (by simp), nextToken_append (by decide +kernel)]
  simp only [cis]
  rw [nextToken_append (distribution_unbroken _)]
  simp only [DistributionInfo.parseLinuxDistribution_toText]
  rw [nextNonempty_append keyInfo.version]
  simp only
  rw [dif_pos benchmark.validGlobbing, nextNonempty_append keyInfo.benchmarkVersion]
  simp only
  rw [nextNonempty_last keyInfo.sectionName]
  rfl

/-- A version with a slash. -/
def slashedBenchmark : CISBenchmarkInfo where
  distribution := .ubuntu
  version := bytes "20/04"
  benchmarkVersion := bytes "v1.0.0"
  sectionName := bytes "x"
  validGlobbing := by decide +kernel

end OsConfig.ComplianceEngine.CISBenchmarkInfo
