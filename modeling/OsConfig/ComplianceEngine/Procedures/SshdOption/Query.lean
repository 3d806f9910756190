import OsConfig.ComplianceEngine.Procedures.SshdOption
import OsConfig.ComplianceEngine.Result
import OsConfig.ComplianceEngine.StringTools

/-!
# The command that queries the SSH server

`GetSshdOptions` asks the server for its options with `sshd -T`. Where the
configuration matches on groups, the name and the address of the host are put
into the command. They are escaped for double quotes, and then stand in the
command without quotes. So the shell takes them as they are if and only if no
byte of them is a blank, part of an operator or a single quote, and they are no
pattern for the names of files.
-/

namespace OsConfig.ComplianceEngine.SshdOption

open ByteString ShellWords
open CommonUtils (toLower)

/-- `text.erase(text.find_last_not_of(" \n\r\t") + 1)` -/
def trimEnd (text : ByteString) : ByteString :=
  text.rdropWhile fun byte => byte ∈ ([32, 10, 13, 9] : ByteString)

/-- The command up to the context of the query. -/
def plainCommand (extraConfig : ByteString) : ByteString :=
  bytes "sshd -T" ++ (if extraConfig = [] then [] else 32 :: extraConfig)

def hostContext (hostname hostAddress : ByteString) : ByteString :=
  bytes " -C user=root -C host=" ++ escapeForShell (trimEnd hostname) ++ bytes " -C addr=" ++
    escapeForShell (trimEnd hostAddress)

def matchesGroup (output : ByteString) : Prop :=
  bytes "match group" <:+: output ∨ bytes "Match group" <:+: output

instance (output : ByteString) : Decidable (matchesGroup output) :=
  inferInstanceAs (Decidable (_ ∨ _))

variable (executeCommand : ByteString → Result ByteString)

/-- The part of `GetSshdOptions` that builds the command. -/
def sshdCommand (extraConfig matchContext : ByteString) : Result ByteString :=
  let command := plainCommand extraConfig
  if matchContext ≠ [] then .ok (command ++ bytes " -C " ++ matchContext)
  else
    match executeCommand (command ++ bytes " 2>&1") with
    | .error failure =>
        .error { failure with
          message := bytes "Failed to execute sshd -T command: " ++ failure.message }
    | .ok output =>
        if matchesGroup output then
          match executeCommand (bytes "hostname") with
          | .error failure =>
              .error { failure with
                message := bytes "Failed to execute hostname command: " ++ failure.message }
          | .ok hostname =>
              match executeCommand (bytes "hostname -I | cut -d ' ' -f1") with
              | .error failure =>
                  .error { failure with
                    message := bytes "Failed to get host address: " ++ failure.message }
              | .ok hostAddress => .ok (command ++ hostContext hostname hostAddress)
        else .ok command

/-- The option on a line of the answer and its value, both in lower case. -/
def readOption (line : ByteString) : Option (ByteString × ByteString) :=
  (readWord line).map fun (option, rest) =>
    (option.map toLower, (rest.dropWhile fun byte => byte = 32 || byte = 9).map toLower)

/-- `GetSshdOptions`. The last line on an option counts. -/
def getSshdOptions (extraConfig matchContext : ByteString) :
    Result (Std.ExtTreeMap ByteString ByteString) :=
  match sshdCommand executeCommand extraConfig matchContext with
  | .error failure => .error failure
  | .ok command =>
      match executeCommand command with
      | .error failure =>
          .error { failure with
            message := bytes "Failed to execute " ++ command ++ bytes ": " ++ failure.message }
      | .ok output =>
          .ok (((getLines output).filterMap readOption).foldl
            (fun options (option, value) => options.insert option value) ∅)

section Unquoted

variable {mode next last : Mode} {ended : List Word} {byte : UInt8} {word first : Word}
  {others : List Word} {text rest : ByteString}

/-- A byte that stands for itself where it is escaped for double quotes and not quoted. -/
def IsLiteralByte (byte : UInt8) : Prop :=
  byte ≠ 0 ∧ isBlank byte = false ∧ isOperator byte = false ∧ byte ≠ 39

/-- The letters that an escaped text is read as outside of quotes. -/
def escapedWord (text : ByteString) : Word :=
  text.map fun byte => ⟨byte, isSpecial byte⟩

theorem text_escapedWord (text : ByteString) : (escapedWord text).text = text := by
  simp [escapedWord, Word.text, Function.comp_def]

theorem step_unquoted_plain (notBlank : isBlank byte = false) (noOperator : isOperator byte = false)
    (plain : isSpecial byte = false) (noQuote : byte ≠ 39) :
    (Mode.unquoted (some word)).step byte = some ([], .unquoted (some (word ++ [⟨byte, false⟩]))) := by
  simp only [isSpecial, List.mem_cons, List.not_mem_nil, or_false, decide_eq_false_iff_not,
    not_or] at plain
  simp [Mode.step, Mode.outside, notBlank, noOperator, plain, noQuote]

theorem run_unquoted_special (special : isSpecial byte = true) :
    (Mode.unquoted (some word)).run (92 :: byte :: rest) =
      (Mode.unquoted (some (word ++ [⟨byte, true⟩]))).run rest := by
  have notNewline : byte ≠ 10 := by
    rintro rfl
    cases special
  have opens : (Mode.unquoted (some word)).step 92 = some ([], .escaped (some word)) := rfl
  have reads : (Mode.escaped (some word)).step byte =
      some ([], .unquoted (some (word ++ [⟨byte, true⟩]))) := by
    simp [Mode.step, notNewline]
  rw [run_cons_of_step opens, run_cons_of_step reads]

theorem run_unquoted_escapeForShell (literal : ∀ byte ∈ text, IsLiteralByte byte) :
    (Mode.unquoted (some word)).run (escapeForShell text) =
      some ([], .unquoted (some (word ++ escapedWord text))) := by
  induction text generalizing word with
  | nil => simp [escapeForShell, Mode.run, escapedWord]
  | cons byte text ih =>
      rw [List.forall_mem_cons] at literal
      obtain ⟨⟨-, notBlank, noOperator, noQuote⟩, others⟩ := literal
      cases special : isSpecial byte with
      | true =>
          rw [escapeForShell_special special, run_unquoted_special special, ih others]
          simp [escapedWord, special]
      | false =>
          rw [escapeForShell_plain special,
            run_cons_of_step (step_unquoted_plain notBlank noOperator special noQuote), ih others]
          simp [escapedWord, special]

/-- Outside of double quotes, and not behind a backslash. -/
def IsLoose : Mode → Prop
  | .unquoted _ => True
  | .single _ => True
  | _ => False

theorem loose_of_step (loose : IsLoose mode) (plain : isSpecial byte = false)
    (steps : mode.step byte = some (ended, next)) : IsLoose next := by
  simp only [isSpecial, List.mem_cons, List.not_mem_nil, or_false, decide_eq_false_iff_not,
    not_or] at plain
  cases mode with
  | unquoted word =>
      rw [Mode.step] at steps
      split_ifs at steps with blank
      · cases steps
        trivial
      · obtain ⟨target, outside, equal⟩ := Option.map_eq_some_iff.mp steps
        cases equal
        simp only [Mode.outside, plain, if_false] at outside
        split_ifs at outside
        all_goals
          cases outside
          trivial
  | single word =>
      rw [Mode.step] at steps
      split_ifs at steps
      all_goals
        cases steps
        trivial
  | escaped | double | doubleEscaped => exact loose.elim

/-- A single quote that is not escaped is no letter of a word. -/
theorem letters_of_loose_step (loose : IsLoose mode)
    (steps : mode.step byte = some (ended, next)) :
    ∀ letter ∈ next.letters, letter ∈ mode.letters ∨ letter.byte ≠ 39 := by
  by_cases quote : byte = 39
  · subst quote
    cases mode with
    | unquoted word =>
        cases steps
        exact fun letter mem => .inl mem
    | single word =>
        cases steps
        exact fun letter mem => .inl mem
    | escaped | double | doubleEscaped => exact loose.elim
  · intro letter mem
    rcases (letters_of_step steps).2 letter mem with earlier | here
    · exact .inl earlier
    · exact .inr (here ▸ quote)

theorem run_special_of_loose (loose : IsLoose mode) (special : isSpecial byte = true) :
    ∃ next, mode.run [92, byte] = some ([], next) ∧ IsLoose next ∧
      ∀ letter ∈ next.letters, letter ∈ mode.letters ∨ letter.byte = 92 ∨ letter.byte = byte := by
  have noQuote : byte ≠ 39 := by
    rintro rfl
    cases special
  have notNewline : byte ≠ 10 := by
    rintro rfl
    cases special
  cases mode with
  | unquoted word =>
      refine ⟨.unquoted (some (word.getD [] ++ [⟨byte, true⟩])), ?_, trivial, ?_⟩
      · simp [Mode.run, Mode.step, Mode.outside, isBlank, isOperator, notNewline]
      · intro letter mem
        simp only [Mode.letters, Option.getD_some, List.mem_append, List.mem_singleton] at mem
        rcases mem with earlier | rfl
        · exact .inl earlier
        · exact .inr (.inr rfl)
  | single word =>
      refine ⟨.single (word ++ [⟨92, true⟩] ++ [⟨byte, true⟩]), ?_, trivial, ?_⟩
      · simp [Mode.run, Mode.step, noQuote]
      · intro letter mem
        simp only [Mode.letters, List.mem_append, List.mem_singleton] at mem
        rcases mem with (earlier | rfl) | rfl
        · exact .inl earlier
        · exact .inr (.inl rfl)
        · exact .inr (.inr rfl)
  | escaped | double | doubleEscaped => exact loose.elim

theorem apostrophe_of_run (loose : IsLoose mode)
    (before : ∀ letter ∈ mode.letters, letter.byte ≠ 39)
    (reads : mode.run (escapeForShell text) = some (ended, last)) :
    (∀ word ∈ ended, ∀ letter ∈ word, letter.byte ≠ 39) ∧
      ∀ letter ∈ last.letters, letter.byte ≠ 39 := by
  induction text generalizing mode ended with
  | nil =>
      simp only [escapeForShell, List.flatMap_nil, Mode.run, Option.some.injEq,
        Prod.mk.injEq] at reads
      obtain ⟨rfl, rfl⟩ := reads
      exact ⟨by simp, before⟩
  | cons byte text ih =>
      cases special : isSpecial byte with
      | true =>
          obtain ⟨middle, pair, loose', letters⟩ := run_special_of_loose loose special
          have onwards : ∀ letter ∈ middle.letters, letter.byte ≠ 39 := by
            intro letter mem
            rcases letters letter mem with earlier | backslash | here
            · exact before letter earlier
            · simp [backslash]
            · rintro quote
              rw [← here, quote] at special
              cases special
          have parts : escapeForShell (byte :: text) = [92, byte] ++ escapeForShell text :=
            escapeForShell_special special text
          rw [parts, run_append pair] at reads
          obtain ⟨⟨later, final⟩, onward, equal⟩ := Option.map_eq_some_iff.mp reads
          cases equal
          exact ih loose' onwards onward
      | false =>
          rw [escapeForShell_plain special] at reads
          obtain ⟨first, middle, others, steps, onward, rfl⟩ := run_cons.mp reads
          have loose' := loose_of_step loose special steps
          have onwards : ∀ letter ∈ middle.letters, letter.byte ≠ 39 := by
            intro letter mem
            rcases letters_of_loose_step loose steps letter mem with earlier | here
            · exact before letter earlier
            · exact here
          obtain ⟨later, final⟩ := ih loose' onwards onward
          refine ⟨?_, final⟩
          intro word mem
          rcases List.mem_append.mp mem with here | there
          · exact (letters_of_step steps).1 word here ▸ before
          · exact later word there

theorem notMem_apostrophe_of_wordsFrom (before : 39 ∉ word.text) {found : List Word}
    (reads : wordsFrom (.unquoted (some word)) (escapeForShell text) = some found) :
    ∀ other ∈ found, 39 ∉ other.text := by
  have clean : ∀ letter ∈ (Mode.unquoted (some word)).letters, letter.byte ≠ 39 := by
    intro letter mem quote
    exact before (List.mem_map.mpr ⟨letter, mem, quote⟩)
  have loose : IsLoose (.unquoted (some word)) := trivial
  obtain ⟨ended, last, inside, rfl⟩ := ShellWords.exists_run_of_wordsFrom reads
  obtain ⟨earlier, final⟩ := apostrophe_of_run loose clean inside
  intro other mem quoted
  obtain ⟨letter, letter_mem, quote⟩ := List.mem_map.mp quoted
  rcases List.mem_append.mp mem with here | there
  · exact earlier other here letter letter_mem quote
  · refine final letter ?_ quote
    rw [Option.mem_toList] at there
    rw [there]
    exact letter_mem

theorem not_blank_of_special (special : isSpecial byte = true) :
    isBlank byte = false ∧ isOperator byte = false := by
  simp only [isSpecial, List.mem_cons, List.not_mem_nil, or_false, decide_eq_true_eq] at special
  rcases special with rfl | rfl | rfl | rfl
  all_goals exact ⟨rfl, rfl⟩

theorem literal_of_wordsFrom (noQuote : 39 ∉ text)
    (reads : wordsFrom (.unquoted (some word)) (escapeForShell text ++ rest) =
      some (first :: others))
    (whole : first.text = word.text ++ text) :
    ∀ byte ∈ text, isBlank byte = false ∧ isOperator byte = false := by
  induction text generalizing word with
  | nil => simp
  | cons byte text ih =>
      rw [List.mem_cons, not_or] at noQuote
      rw [List.forall_mem_cons]
      cases special : isSpecial byte with
      | true =>
          rw [escapeForShell_special special, List.cons_append, List.cons_append, wordsFrom,
            run_unquoted_special special] at reads
          exact ⟨not_blank_of_special special,
            ih noQuote.2 reads (by simpa [Word.text] using whole)⟩
      | false =>
          rw [escapeForShell_plain special, List.cons_append] at reads
          cases blank : isBlank byte with
          | true =>
              -- The word ends in front of the byte.
              have ends : (Mode.unquoted (some word)).run [byte] =
                  some ([word], .unquoted none) := by
                simp [Mode.run, Mode.step, blank]
              rw [← List.singleton_append, wordsFrom_append ends] at reads
              obtain ⟨later, -, equal⟩ := Option.map_eq_some_iff.mp reads
              rw [List.singleton_append, List.cons.injEq] at equal
              have lengths := congrArg List.length whole
              rw [← equal.1, List.length_append, List.length_cons] at lengths
              omega
          | false =>
              cases operator : isOperator byte with
              | true => simp [wordsFrom, Mode.run, Mode.step, Mode.outside, blank, operator] at reads
              | false =>
                  rw [wordsFrom, run_cons_of_step (step_unquoted_plain blank operator special
                    (Ne.symm noQuote.1))] at reads
                  exact ⟨⟨rfl, rfl⟩, ih noQuote.2 reads (by simpa [Word.text] using whole)⟩

end Unquoted

section Literal

/-- A text that the shell takes as it is where it is escaped for double quotes and not quoted. -/
structure IsLiteral (text : ByteString) : Prop where
  bytes : ∀ byte ∈ text, IsLiteralByte byte
  noPattern : isPattern (escapedWord text) = false

/-- The arguments that put a host into the command. -/
def hostArguments (hostname hostAddress : ByteString) : List ByteString :=
  [bytes "-C", bytes "user=root", bytes "-C", bytes "host=" ++ hostname, bytes "-C",
    bytes "addr=" ++ hostAddress]

/-- A word with none of its letters quoted. -/
def plainWord (text : ByteString) : Word :=
  text.map fun byte => ⟨byte, false⟩

theorem text_plainWord (text : ByteString) : (plainWord text).text = text := by
  simp [plainWord, Word.text, Function.comp_def]

variable {hostname hostAddress : ByteString} {found : List Word}

/-- The words that the arguments are read as if both texts are literal. -/
def hostWords (hostname hostAddress : ByteString) : List Word :=
  [plainWord (bytes "-C"), plainWord (bytes "user=root"), plainWord (bytes "-C"),
    plainWord (bytes "host=") ++ escapedWord hostname, plainWord (bytes "-C"),
    plainWord (bytes "addr=") ++ escapedWord hostAddress]

theorem words_hostArguments (rest : ByteString) :
    words (bytes "-C user=root -C host=" ++ rest) =
      (wordsFrom (.unquoted (some (plainWord (bytes "host=")))) rest).map fun later =>
        plainWord (bytes "-C") :: plainWord (bytes "user=root") :: plainWord (bytes "-C") ::
          later := by
  have reads : (Mode.unquoted none).run (bytes "-C user=root -C host=") =
      some ([plainWord (bytes "-C"), plainWord (bytes "user=root"), plainWord (bytes "-C")],
        .unquoted (some (plainWord (bytes "host=")))) := by
    decide +kernel
  exact wordsFrom_append reads

theorem wordsFrom_addressArgument (word : Word) (rest : ByteString) :
    wordsFrom (.unquoted (some word)) (bytes " -C addr=" ++ rest) =
      (wordsFrom (.unquoted (some (plainWord (bytes "addr=")))) rest).map fun later =>
        word :: plainWord (bytes "-C") :: later := by
  have reads : (Mode.unquoted (some word)).run (bytes " -C addr=") =
      some ([word, plainWord (bytes "-C")],
        .unquoted (some (plainWord (bytes "addr=")))) := by
    rfl
  exact wordsFrom_append reads

theorem wordsFrom_literal {text rest : ByteString} (literal : ∀ byte ∈ text, IsLiteralByte byte)
    (word : Word) :
    wordsFrom (.unquoted (some word)) (escapeForShell text ++ rest) =
      wordsFrom (.unquoted (some (word ++ escapedWord text))) rest := by
  rw [wordsFrom_append (run_unquoted_escapeForShell literal)]
  simp

theorem arePlain_hostWords {front : List Word} :
    arePlain (front ++ hostWords hostname hostAddress) = true ↔
      arePlain front = true ∧ isPattern (escapedWord hostname) = false ∧
        isPattern (escapedWord hostAddress) = false := by
  have host : ∀ letter ∈ plainWord (bytes "host="), letter.byte ∉ ([42, 63, 91] : ByteString) := by
    decide +kernel
  have address : ∀ letter ∈ plainWord (bytes "addr="),
      letter.byte ∉ ([42, 63, 91] : ByteString) := by
    decide +kernel
  have option : isPattern (plainWord (bytes "-C")) = false := by decide +kernel
  have user : isPattern (plainWord (bytes "user=root")) = false := by decide +kernel
  rw [hostWords, arePlain_append_cons (by decide +kernel)]
  simp [isPattern_append host, isPattern_append address, option, user]

theorem text_hostWords :
    (hostWords hostname hostAddress).map Word.text = hostArguments hostname hostAddress := by
  simp [hostWords, hostArguments, text_plainWord, text_escapedWord]

/-- The context of a host behind a command. -/
def hostText (hostname hostAddress : ByteString) : ByteString :=
  bytes "-C user=root -C host=" ++ (escapeForShell hostname ++
    (bytes " -C addr=" ++ escapeForShell hostAddress))

theorem hostContext_eq (hostname hostAddress : ByteString) :
    hostContext hostname hostAddress = 32 :: hostText (trimEnd hostname) (trimEnd hostAddress) := by
  have blank : bytes " -C user=root -C host=" = 32 :: bytes "-C user=root -C host=" := by
    decide +kernel
  simp [hostContext, hostText, blank]

theorem words_hostText (literalName : ∀ byte ∈ hostname, IsLiteralByte byte)
    (literalAddress : ∀ byte ∈ hostAddress, IsLiteralByte byte) :
    words (hostText hostname hostAddress) = some (hostWords hostname hostAddress) := by
  rw [hostText, words_hostArguments, wordsFrom_literal literalName, wordsFrom_addressArgument,
    ← List.append_nil (escapeForShell hostAddress), wordsFrom_literal literalAddress]
  rfl

theorem literal_of_words_hostText (reads : words (hostText hostname hostAddress) = some found)
    (texts : found.map Word.text = hostArguments hostname hostAddress)
    (nulName : 0 ∉ hostname) (nulAddress : 0 ∉ hostAddress) :
    (∀ byte ∈ hostname, IsLiteralByte byte) ∧ ∀ byte ∈ hostAddress, IsLiteralByte byte := by
  rw [hostText, words_hostArguments] at reads
  obtain ⟨later, readsName, rfl⟩ := Option.map_eq_some_iff.mp reads
  simp only [hostArguments, List.map_cons, List.cons.injEq, List.map_eq_cons_iff,
    List.map_eq_nil_iff] at texts
  obtain ⟨-, -, -, first, others, rfl, nameText, second, others, rfl, -, third, others, rfl,
    addressText, rfl⟩ := texts
  -- No word has a single quote in it, so neither text has one.
  have whole : escapeForShell hostname ++ (bytes " -C addr=" ++ escapeForShell hostAddress) =
      escapeForShell (hostname ++ (bytes " -C addr=" ++ hostAddress)) := by
    have fixed : escapeForShell (bytes " -C addr=") = bytes " -C addr=" := by decide +kernel
    rw [escapeForShell_append, escapeForShell_append, fixed]
  have unquoted := notMem_apostrophe_of_wordsFrom (by decide +kernel) (whole ▸ readsName)
  have quoteName : 39 ∉ hostname := by
    have absent := unquoted first (by simp)
    rw [nameText] at absent
    exact fun mem => absent (List.mem_append_right _ mem)
  have quoteAddress : 39 ∉ hostAddress := by
    have absent := unquoted third (by simp)
    rw [addressText] at absent
    exact fun mem => absent (List.mem_append_right _ mem)
  have name := literal_of_wordsFrom quoteName readsName (by rw [nameText, text_plainWord])
  have literalName : ∀ byte ∈ hostname, IsLiteralByte byte := fun byte mem =>
    ⟨ne_of_mem_of_not_mem mem nulName, (name byte mem).1, (name byte mem).2,
      ne_of_mem_of_not_mem mem quoteName⟩
  rw [wordsFrom_literal literalName, wordsFrom_addressArgument] at readsName
  obtain ⟨last, readsAddress, equal⟩ := Option.map_eq_some_iff.mp readsName
  simp only [List.cons.injEq] at equal
  obtain ⟨-, -, rfl⟩ := equal
  rw [← List.append_nil (escapeForShell hostAddress)] at readsAddress
  have address := literal_of_wordsFrom quoteAddress readsAddress (by rw [addressText, text_plainWord])
  exact ⟨literalName, fun byte mem =>
    ⟨ne_of_mem_of_not_mem mem nulAddress, (address byte mem).1, (address byte mem).2,
      ne_of_mem_of_not_mem mem quoteAddress⟩⟩

end Literal

section Command

variable {executeCommand : ByteString → Result ByteString}
  {extraConfig output hostname hostAddress : ByteString} {before : List ByteString}

theorem sshdCommand_hostContext
    (tested : executeCommand (plainCommand extraConfig ++ bytes " 2>&1") = .ok output)
    (onGroups : matchesGroup output) (named : executeCommand (bytes "hostname") = .ok hostname)
    (addressed : executeCommand (bytes "hostname -I | cut -d ' ' -f1") = .ok hostAddress) :
    sshdCommand executeCommand extraConfig [] =
      .ok (plainCommand extraConfig ++ hostContext hostname hostAddress) := by
  simp [sshdCommand, tested, onGroups, named, addressed]

theorem mem_escapeForShell {text : ByteString} {byte : UInt8} (mem : byte ∈ escapeForShell text) :
    byte ∈ text ∨ byte = 92 := by
  obtain ⟨letter, letter_mem, inside⟩ := List.mem_flatMap.mp mem
  split_ifs at inside
  · rcases List.mem_cons.mp inside with backslash | here
    · exact .inr backslash
    · exact .inl (List.mem_singleton.mp here ▸ letter_mem)
  · exact .inl (List.mem_singleton.mp inside ▸ letter_mem)

theorem nul_notMem_command (nulFree : 0 ∉ extraConfig) (nulName : 0 ∉ trimEnd hostname)
    (nulAddress : 0 ∉ trimEnd hostAddress) :
    0 ∉ plainCommand extraConfig ++ hostContext hostname hostAddress := by
  have escaped {text : ByteString} (absent : 0 ∉ text) : 0 ∉ escapeForShell text := by
    intro mem
    rcases mem_escapeForShell mem with here | backslash
    · exact absent here
    · cases backslash
  have query : 0 ∉ bytes "sshd -T" := by decide +kernel
  have host : 0 ∉ bytes " -C user=root -C host=" := by decide +kernel
  have address : 0 ∉ bytes " -C addr=" := by decide +kernel
  simp only [plainCommand, hostContext, List.mem_append, not_or]
  refine ⟨⟨query, ?_⟩, ⟨⟨host, escaped nulName⟩, address⟩, escaped nulAddress⟩
  split
  · simp
  · simp [nulFree]

/-- Where the configuration matches on groups, the name and the address of the host are passed to
the SSH server as they are, each inside a single argument of one simple command, if and only if the
shell takes them as they are where they are escaped for double quotes and not quoted. -/
theorem sshdCommand_literal_iff (nulFree : 0 ∉ extraConfig)
    (front : simpleCommand (plainCommand extraConfig) = some before)
    (tested : executeCommand (plainCommand extraConfig ++ bytes " 2>&1") = .ok output)
    (onGroups : matchesGroup output) (named : executeCommand (bytes "hostname") = .ok hostname)
    (addressed : executeCommand (bytes "hostname -I | cut -d ' ' -f1") = .ok hostAddress) :
    (∃ command, sshdCommand executeCommand extraConfig [] = .ok command ∧
        simpleCommand (cString command) =
          some (before ++ hostArguments (trimEnd hostname) (trimEnd hostAddress))) ↔
      IsLiteral (trimEnd hostname) ∧ IsLiteral (trimEnd hostAddress) := by
  have built := sshdCommand_hostContext tested onGroups named addressed
  obtain ⟨frontWords, inFront, plainFront, texts⟩ := simpleCommand_eq_some_iff.mp front
  have parts : words (plainCommand extraConfig ++ hostContext hostname hostAddress) =
      (words (hostText (trimEnd hostname) (trimEnd hostAddress))).map fun later =>
        frontWords ++ later := by
    rw [hostContext_eq]
    exact wordsFrom_append_blank inFront rfl
  constructor
  · rintro ⟨command, builds, reads⟩
    rw [built, Except.ok.injEq] at builds
    subst builds
    obtain ⟨found, inside, plain, foundTexts⟩ := simpleCommand_eq_some_iff.mp reads
    -- The command ends at its first NUL, so no word has one.
    have noNul : ∀ word ∈ found, ∀ byte ∈ word.text, byte ≠ 0 :=
      forall_byte_of_words (fun byte mem => by simpa using List.mem_takeWhile_imp mem) inside
    have argument {text : ByteString}
        (mem : text ∈ hostArguments (trimEnd hostname) (trimEnd hostAddress)) : 0 ∉ text := by
      have listed : text ∈ found.map Word.text := foundTexts ▸ List.mem_append_right _ mem
      obtain ⟨word, word_mem, rfl⟩ := List.mem_map.mp listed
      exact fun nul => noNul word word_mem 0 nul rfl
    have nulName : 0 ∉ trimEnd hostname := fun mem =>
      argument (List.mem_of_getElem? (i := 3) rfl) (List.mem_append_right _ mem)
    have nulAddress : 0 ∉ trimEnd hostAddress := fun mem =>
      argument (List.mem_of_getElem? (i := 5) rfl) (List.mem_append_right _ mem)
    rw [cString_of_not_mem (nul_notMem_command nulFree nulName nulAddress), parts] at inside
    obtain ⟨later, readsContext, rfl⟩ := Option.map_eq_some_iff.mp inside
    have laterTexts : later.map Word.text =
        hostArguments (trimEnd hostname) (trimEnd hostAddress) := by
      rw [List.map_append, texts] at foundTexts
      exact List.append_cancel_left foundTexts
    obtain ⟨literalName, literalAddress⟩ :=
      literal_of_words_hostText readsContext laterTexts nulName nulAddress
    rw [words_hostText literalName literalAddress, Option.some.injEq] at readsContext
    subst readsContext
    obtain ⟨-, patternName, patternAddress⟩ := arePlain_hostWords.mp plain
    exact ⟨⟨literalName, patternName⟩, literalAddress, patternAddress⟩
  · rintro ⟨name, address⟩
    refine ⟨_, built, ?_⟩
    have nulName : 0 ∉ trimEnd hostname := fun mem => (name.bytes 0 mem).1 rfl
    have nulAddress : 0 ∉ trimEnd hostAddress := fun mem => (address.bytes 0 mem).1 rfl
    rw [cString_of_not_mem (nul_notMem_command nulFree nulName nulAddress), simpleCommand, parts,
      words_hostText name.bytes address.bytes]
    have plain : arePlain (frontWords ++ hostWords (trimEnd hostname) (trimEnd hostAddress)) :=
      arePlain_hostWords.mpr ⟨plainFront, name.noPattern, address.noPattern⟩
    simp [plain, texts, text_hostWords]

/-- What a test run prints where the configuration matches on groups. -/
def groupOutput : ByteString :=
  bytes "'Match group' in configuration but 'user' not in connection test specification.\n"

/-- A machine whose SSH configuration matches on groups. -/
def hostCommands (hostname hostAddress : ByteString) (command : ByteString) : Result ByteString :=
  if command = bytes "hostname" then .ok hostname
  else if command = bytes "hostname -I | cut -d ' ' -f1" then .ok hostAddress
  else .ok groupOutput

theorem sshdCommand_literal_iff_web :
    (∃ command, sshdCommand (hostCommands (bytes "web01\n") (bytes "10.0.0.4\n")) [] [] =
          .ok command ∧
        simpleCommand (cString command) =
          some ([bytes "sshd", bytes "-T"] ++
            hostArguments (trimEnd (bytes "web01\n")) (trimEnd (bytes "10.0.0.4\n")))) ↔
      IsLiteral (trimEnd (bytes "web01\n")) ∧ IsLiteral (trimEnd (bytes "10.0.0.4\n")) :=
  sshdCommand_literal_iff (by simp) (by decide +kernel)
    (show hostCommands _ _ (plainCommand [] ++ bytes " 2>&1") = .ok groupOutput by decide +kernel)
    (by decide +kernel) rfl rfl

/-- The operator in the name of the host ends the command. -/
theorem operator_in_hostname :
    ¬∀ hostname hostAddress, ∃ command,
      sshdCommand (hostCommands hostname hostAddress) [] [] = .ok command ∧
        simpleCommand (cString command) =
          some ([bytes "sshd", bytes "-T"] ++
            hostArguments (trimEnd hostname) (trimEnd hostAddress)) := by
  intro literal
  obtain ⟨command, builds, reads⟩ := literal (bytes "web01;id\n") (bytes "10.0.0.4\n")
  have built : sshdCommand (hostCommands (bytes "web01;id\n") (bytes "10.0.0.4\n")) [] [] =
      .ok (bytes "sshd -T -C user=root -C host=web01;id -C addr=10.0.0.4") := by
    decide +kernel
  have refused : simpleCommand
      (cString (bytes "sshd -T -C user=root -C host=web01;id -C addr=10.0.0.4")) = none := by
    decide +kernel
  rw [built, Except.ok.injEq] at builds
  rw [← builds, refused] at reads
  cases reads

end Command

end OsConfig.ComplianceEngine.SshdOption
