import OsConfig.Common.ProxyUtils

/-!
# The forms of proxy data

What `ParseHttpProxyData` accepts is of one of two forms, cut at its separators,
and every text of these forms is accepted with the parts between them. The
credentials end at the only '@' without a backslash in front of it, or at the
first '@' if there is none.

From this come the two directions of the documented format: the parts of every
documented URL come back, and what is accepted has the separators in place.
Neither the port nor the presence of the parts is checked.
-/

namespace OsConfig.ProxyUtils

open ByteString CommonUtils

section Searching

variable {before skipped rest : ByteString} {byte : UInt8}

theorem idxOf?_append_cons (absent : byte ∉ skipped) :
    (skipped ++ byte :: rest).idxOf? byte = some skipped.length := by
  induction skipped with
  | nil => simp [List.idxOf?_cons]
  | cons first others ih =>
      rw [List.mem_cons, not_or] at absent
      have different : (first == byte) = false := by
        simpa using Ne.symm absent.1
      rw [List.cons_append, List.idxOf?_cons, different, ih absent.2]
      rfl

theorem strchr_eq (absent : byte ∉ skipped) :
    strchr (before ++ (skipped ++ byte :: rest)) before.length byte =
      some (before.length + skipped.length) := by
  rw [strchr, List.drop_left, idxOf?_append_cons absent]
  rfl

theorem strchr_eq_none (absent : byte ∉ rest) : strchr (before ++ rest) before.length byte = none := by
  rw [strchr, List.drop_left, List.idxOf?_eq_none_iff.mpr absent]
  rfl

theorem strrchr_eq {front : ByteString} (absent : byte ∉ rest) :
    strrchr (before ++ (front ++ byte :: rest)) before.length byte =
      some (before.length + front.length) := by
  have backwards : (front ++ byte :: rest).reverse = rest.reverse ++ byte :: front.reverse := by
    simp
  have absent' : byte ∉ rest.reverse := fun mem => absent (List.mem_reverse.mp mem)
  rw [strrchr, List.drop_left, backwards, idxOf?_append_cons absent', Option.map_some]
  simp only [List.length_append, List.length_cons, List.length_reverse, Option.some.injEq]
  omega

def copied (part : ByteString) : Option ByteString :=
  if part = [] then none else some part

theorem copyPart_eq {part : ByteString} {length : ℤ} (length_eq : length = part.length) :
    copyPart (before ++ (part ++ rest)) before.length length = some (copied part) := by
  rw [copyPart, copied, length_eq]
  by_cases empty : part = []
  · rw [empty]
    rfl
  · have positive := List.length_pos_iff.mpr empty
    rw [if_pos (by omega), if_neg empty, if_pos]
    · rw [List.drop_left, Int.toNat_natCast, List.take_left]
    · simp only [List.length_append]
      omega

end Searching

section Scanning

variable {previous byte : UInt8} {i : ℕ} {rest text : ByteString} {counters result : Counters}

/-- A character that the pass knows. -/
def IsSupported (byte : UInt8) : Prop :=
  isProxyCharacter byte = true ∨ byte = 64 ∨ byte = 58

instance (byte : UInt8) : Decidable (IsSupported byte) :=
  inferInstanceAs (Decidable (_ ∨ _))

/-- Every '@' has a backslash in front of it. -/
def Escaped : UInt8 → ByteString → Prop
  | _, [] => True
  | previous, byte :: rest => (byte = 64 → previous = 92) ∧ Escaped byte rest

/-- The character in front of what follows a text. -/
def lastOf (previous : UInt8) (text : ByteString) : UInt8 :=
  text.getLast?.getD previous

theorem lastOf_cons (previous byte : UInt8) (rest : ByteString) :
    lastOf previous (byte :: rest) = lastOf byte rest := by
  rw [lastOf, lastOf, List.getLast?_cons, Option.getD_some]

theorem escaped_append (first second : ByteString) :
    Escaped previous (first ++ second) ↔
      Escaped previous first ∧ Escaped (lastOf previous first) second := by
  induction first generalizing previous with
  | nil => exact (and_iff_right trivial).symm
  | cons byte rest ih => rw [List.cons_append, Escaped, Escaped, ih, lastOf_cons, and_assoc]

theorem escaped_of_notMem (absent : 64 ∉ text) : Escaped previous text := by
  induction text generalizing previous with
  | nil => trivial
  | cons byte rest ih =>
      rw [List.mem_cons, not_or] at absent
      exact ⟨fun at_sign => absurd at_sign.symm absent.1, ih absent.2⟩

theorem scan_character (known : isProxyCharacter byte = true) :
    scan (some previous) i (byte :: rest) counters =
      scan (some byte) (i + 1) rest counters := by
  rw [scan, if_pos known]

theorem scan_escaped :
    scan (some 92) i (64 :: rest) counters = scan (some 64) (i + 1) rest counters := rfl

theorem scan_separator (plain : previous ≠ 92) (first : counters.credentialsSeparatorCounter = 0) :
    scan (some previous) i (64 :: rest) counters =
      scan (some 64) (i + 1) rest
        ⟨counters.credentialsSeparator <|> some i, 1, counters.columnCounter⟩ := by
  have at_sign : ¬ isProxyCharacter 64 = true := by decide
  rw [scan, if_neg at_sign, if_pos rfl]
  simp only [ne_eq, plain, not_false_eq_true, if_true, first]
  rfl

theorem scan_column (few : counters.columnCounter < 3) :
    scan (some previous) i (58 :: rest) counters =
      scan (some 58) (i + 1) rest { counters with columnCounter := counters.columnCounter + 1 } := by
  have column : ¬ isProxyCharacter 58 = true := by decide
  have not_at : ¬ (58 : UInt8) = 64 := by decide
  have not_over : ¬ 3 < counters.columnCounter + 1 := by omega
  rw [scan, if_neg column, if_neg not_at, if_pos rfl]
  simp only [not_over, if_false]

/-- What one step of the pass can be. -/
theorem scan_cons_cases (passed : scan (some previous) i (byte :: rest) counters = some result) :
    (isProxyCharacter byte = true ∧ scan (some byte) (i + 1) rest counters = some result) ∨
      (byte = 64 ∧ previous = 92 ∧ scan (some byte) (i + 1) rest counters = some result) ∨
      (byte = 64 ∧ previous ≠ 92 ∧ counters.credentialsSeparatorCounter = 0 ∧
        scan (some byte) (i + 1) rest
          ⟨counters.credentialsSeparator <|> some i, 1, counters.columnCounter⟩ = some result) ∨
      (byte = 58 ∧ counters.columnCounter < 3 ∧
        scan (some byte) (i + 1) rest
          { counters with columnCounter := counters.columnCounter + 1 } = some result) := by
  by_cases known : isProxyCharacter byte = true
  · rw [scan_character known] at passed
    exact Or.inl ⟨known, passed⟩
  by_cases at_sign : byte = 64
  · subst at_sign
    by_cases escaped : previous = 92
    · rw [escaped, scan_escaped] at passed
      exact Or.inr (Or.inl ⟨rfl, escaped, passed⟩)
    · by_cases first : counters.credentialsSeparatorCounter = 0
      · rw [scan_separator escaped first] at passed
        exact Or.inr (Or.inr (Or.inl ⟨rfl, escaped, first, passed⟩))
      · rw [scan, if_neg known, if_pos rfl] at passed
        have second : 1 < counters.credentialsSeparatorCounter + 1 := by omega
        simp only [ne_eq, escaped, not_false_eq_true, if_true, second] at passed
        cases passed
  · by_cases column : byte = 58
    · subst column
      by_cases few : counters.columnCounter < 3
      · rw [scan_column few] at passed
        exact Or.inr (Or.inr (Or.inr ⟨rfl, few, passed⟩))
      · rw [scan, if_neg known, if_neg at_sign, if_pos rfl] at passed
        have many : 3 < counters.columnCounter + 1 := by omega
        simp only [many, if_true] at passed
        cases passed
    · rw [scan, if_neg known, if_neg at_sign, if_neg column] at passed
      cases passed

theorem scan_append (first second : ByteString) :
    scan (some previous) i (first ++ second) counters =
      (scan (some previous) i first counters).bind
        (scan (some (lastOf previous first)) (i + first.length) second) := by
  induction first generalizing previous i counters with
  | nil => rfl
  | cons byte rest ih =>
      have index : i + (byte :: rest).length = i + 1 + rest.length := by
        rw [List.length_cons]
        omega
      rw [List.cons_append, scan, scan, lastOf_cons, index]
      simp only [ih]
      split
      · rfl
      split
      · split
        · split
          · rfl
          · rfl
        · rfl
      split
      · split
        · rfl
        · rfl
      · rfl

/-- A text without a separator changes the number of columns only. -/
theorem scan_of_escaped (supported : ∀ byte ∈ text, IsSupported byte)
    (escaped : Escaped previous text) (few : counters.columnCounter + text.count 58 ≤ 3) :
    scan (some previous) i text counters =
      some { counters with columnCounter := counters.columnCounter + text.count 58 } := by
  induction text generalizing previous i counters with
  | nil => rfl
  | cons byte rest ih =>
      have later : ∀ other ∈ rest, IsSupported other :=
        fun other mem => supported other (List.mem_cons_of_mem _ mem)
      rcases supported byte List.mem_cons_self with known | rfl | rfl
      · have noColumn : (byte :: rest).count 58 = rest.count 58 := by
          apply List.count_cons_of_ne
          rintro rfl
          cases known
        rw [noColumn] at few ⊢
        rw [scan_character known]
        exact ih later escaped.2 few
      · have noColumn : ((64 : UInt8) :: rest).count 58 = rest.count 58 :=
          List.count_cons_of_ne (by decide)
        rw [noColumn] at few ⊢
        rw [escaped.1 rfl, scan_escaped]
        exact ih later escaped.2 few
      · rw [List.count_cons_self] at few ⊢
        have room : counters.columnCounter < 3 := by omega
        have next := @ih 58 (i + 1) { counters with columnCounter := counters.columnCounter + 1 }
          later escaped.2 (by dsimp only; omega)
        rw [scan_column room, next]
        congr 2
        dsimp only
        omega

/-- The pass has found no separator, or the only one. -/
def Found (previous : UInt8) (i : ℕ) (text : ByteString) (counters result : Counters) : Prop :=
  (Escaped previous text ∧ result.credentialsSeparator = counters.credentialsSeparator) ∨
    (counters.credentialsSeparatorCounter = 0 ∧ ∃ before after,
      text = before ++ 64 :: after ∧ Escaped previous before ∧ lastOf previous before ≠ 92 ∧
      Escaped 64 after ∧ result.credentialsSeparator =
        (counters.credentialsSeparator <|> some (i + before.length)))

theorem Found.cons (passes : byte = 64 → previous = 92)
    (found : Found byte (i + 1) rest counters result) :
    Found previous i (byte :: rest) counters result := by
  rcases found with ⟨escaped, same⟩ | ⟨first, before, after, rfl, escaped, plain, others, here⟩
  · exact Or.inl ⟨⟨passes, escaped⟩, same⟩
  · refine Or.inr ⟨first, byte :: before, after, rfl, ⟨passes, escaped⟩, ?_, others, ?_⟩
    · rwa [lastOf_cons]
    · rw [here, List.length_cons, Nat.add_right_comm, Nat.add_assoc]

/-- What the pass has found when it ends well. -/
theorem scan_cases (passed : scan (some previous) i text counters = some result)
    (few : counters.columnCounter ≤ 3) :
    (∀ byte ∈ text, IsSupported byte) ∧
      result.columnCounter = counters.columnCounter + text.count 58 ∧ result.columnCounter ≤ 3 ∧
      Found previous i text counters result := by
  induction text generalizing previous i counters with
  | nil =>
      cases passed
      exact ⟨by simp, rfl, few, Or.inl ⟨trivial, rfl⟩⟩
  | cons byte rest ih =>
      rcases scan_cons_cases passed with ⟨known, others⟩ | ⟨rfl, escape, others⟩ |
        ⟨rfl, plain, first, others⟩ | ⟨rfl, room, others⟩
      · rcases ih others few with ⟨supported, columns, bound, found⟩
        have noColumn : (byte :: rest).count 58 = rest.count 58 := by
          apply List.count_cons_of_ne
          rintro rfl
          cases known
        have passes : byte = 64 → previous = 92 := by
          rintro rfl
          cases known
        rw [noColumn]
        exact ⟨List.forall_mem_cons.mpr ⟨Or.inl known, supported⟩, columns, bound,
          found.cons passes⟩
      · rcases ih others few with ⟨supported, columns, bound, found⟩
        have noColumn : ((64 : UInt8) :: rest).count 58 = rest.count 58 :=
          List.count_cons_of_ne (by decide)
        rw [noColumn]
        exact ⟨List.forall_mem_cons.mpr ⟨Or.inr (Or.inl rfl), supported⟩, columns, bound,
          found.cons fun _ => escape⟩
      · rcases ih others few with ⟨supported, columns, bound, found⟩
        have noColumn : ((64 : UInt8) :: rest).count 58 = rest.count 58 :=
          List.count_cons_of_ne (by decide)
        rw [noColumn]
        refine ⟨List.forall_mem_cons.mpr ⟨Or.inr (Or.inl rfl), supported⟩, columns, bound, ?_⟩
        rcases found with ⟨escaped, same⟩ | ⟨second, _⟩
        · exact Or.inr ⟨first, [], rest, rfl, trivial, plain, escaped, same⟩
        · cases second
      · rcases ih others room with ⟨supported, columns, bound, found⟩
        rw [List.count_cons_self]
        refine ⟨List.forall_mem_cons.mpr ⟨Or.inr (Or.inr rfl), supported⟩, ?_, bound, ?_⟩
        · rw [columns]
          dsimp only
          omega
        · exact Found.cons (fun at_sign => absurd at_sign (by decide)) found

end Scanning

section Forms

variable {scheme body username password server port : ByteString}

/-- The prefixes that are required. -/
def schemes : List ByteString :=
  [bytes "http://", bytes "HTTP://"]

/-- A body without credentials, cut at its first column. -/
structure ServerForm (body server port : ByteString) : Prop where
  body_eq : body = server ++ 58 :: port
  server_column : 58 ∉ server
  port_columns : port.count 58 ≤ 1
  noSeparator : 64 ∉ body
  supported : ∀ byte ∈ body, IsSupported byte
  port_ne : port ≠ []
  port_end : port.getLast? ≠ some 58
  long : 3 ≤ body.length

/-- The separator between credentials and server is the only '@' without a backslash, or the first
of all if there is none. -/
def Separates (before after : ByteString) : Prop :=
  (Escaped 47 before ∧ lastOf 47 before ≠ 92 ∧ Escaped 64 after) ∨
    (64 ∉ before ∧ lastOf 47 before = 92 ∧ Escaped 64 after)

/-- A body with credentials, cut at its columns and the separator. -/
structure CredentialsForm (body username password server port : ByteString) : Prop where
  body_eq : body = (username ++ 58 :: password) ++ 64 :: (server ++ 58 :: port)
  username_column : 58 ∉ username
  password_column : 58 ∉ password
  server_column : 58 ∉ server
  port_column : 58 ∉ port
  separates : Separates (username ++ 58 :: password) (server ++ 58 :: port)
  supported : ∀ byte ∈ body, IsSupported byte
  port_ne : port ≠ []
  long : 7 ≤ body.length

theorem length_of_mem_schemes (mem : scheme ∈ schemes) : scheme.length = 7 := by
  revert scheme
  decide +kernel

theorem scan_scheme (mem : scheme ∈ schemes) (body : ByteString) :
    scan none 0 (scheme ++ body) ⟨none, 0, 0⟩ = scan (some 47) 7 body ⟨none, 0, 1⟩ := by
  have lower : bytes "http://" = [104, 116, 116, 112, 58, 47, 47] := by decide +kernel
  have upper : bytes "HTTP://" = [72, 84, 84, 80, 58, 47, 47] := by decide +kernel
  simp only [schemes, List.mem_cons, List.not_mem_nil, or_false] at mem
  rcases mem with rfl | rfl
  · rw [lower]
    rfl
  · rw [upper]
    rfl

theorem parse_scheme (mem : scheme ∈ schemes) (nonempty : body ≠ []) :
    parseHttpProxyData (scheme ++ body) =
      (scan (some 47) 7 body ⟨none, 0, 1⟩).elim (some none) (separate (scheme ++ body) 7) := by
  have length_eq := length_of_mem_schemes mem
  have positive := List.length_pos_iff.mpr nonempty
  have seven : (bytes "http://").length = 7 := by decide +kernel
  have long : ¬ (scheme ++ body).length ≤ 7 := by
    rw [List.length_append]
    omega
  have starts : ¬ ((!startsWith (scheme ++ body) (bytes "http://") &&
      !startsWith (scheme ++ body) (bytes "HTTP://")) = true) := by
    simp only [schemes, List.mem_cons, List.not_mem_nil, or_false] at mem
    rcases mem with rfl | rfl
    · simp [startsWith]
    · simp [startsWith]
  rw [parseHttpProxyData]
  simp only [seven, long, starts, if_false, Bool.false_eq_true, scan_scheme mem]
  cases scan (some 47) 7 body ⟨none, 0, 1⟩ with
  | none => rfl
  | some counters => rfl

/-- A text with neither prefix, or with nothing behind it, is refused. -/
theorem parse_cases (text : ByteString) :
    parseHttpProxyData text = some none ∨
      ∃ scheme ∈ schemes, ∃ body, body ≠ [] ∧ text = scheme ++ body := by
  by_cases short : text.length ≤ (bytes "http://").length
  · left
    rw [parseHttpProxyData, if_pos short]
  by_cases foreign : (!startsWith text (bytes "http://") &&
      !startsWith text (bytes "HTTP://")) = true
  · left
    rw [parseHttpProxyData, if_neg short, if_pos foreign]
  right
  rw [Bool.and_eq_true, not_and_or, Bool.not_eq_true', Bool.not_eq_true', Bool.not_eq_false,
    Bool.not_eq_false] at foreign
  have cut : ∀ scheme ∈ schemes, startsWith text scheme = true →
      ∃ scheme ∈ schemes, ∃ body, body ≠ [] ∧ text = scheme ++ body := by
    intro scheme mem starts
    rcases List.isPrefixOf_iff_prefix.mp starts with ⟨body, rfl⟩
    refine ⟨scheme, mem, body, ?_, rfl⟩
    rintro rfl
    apply short
    rw [List.append_nil, length_of_mem_schemes mem]
    decide +kernel
  rcases foreign with lower | upper
  · exact cut _ (by simp [schemes]) lower
  · exact cut _ (by simp [schemes]) upper

theorem exists_last_column (mem : 58 ∈ body) :
    ∃ front back, body = front ++ 58 :: back ∧ 58 ∉ back := by
  rcases List.eq_append_cons_of_mem (List.mem_reverse.mpr mem) with ⟨back, front, reversed, absent⟩
  refine ⟨front.reverse, back.reverse, ?_, fun inside => absent (List.mem_reverse.mp inside)⟩
  rw [← List.reverse_reverse body, reversed]
  simp

theorem copyPart_of_eq {text before part rest : ByteString} {start : ℕ} {length : ℤ}
    (text_eq : text = before ++ (part ++ rest)) (start_eq : start = before.length)
    (length_eq : length = part.length) : copyPart text start length = some (copied part) := by
  rw [text_eq, start_eq]
  exact copyPart_eq length_eq

theorem portNumber_copied (nonempty : port ≠ []) :
    portNumber (copied port) = BitVec.ofInt 32 (strtol port) := by
  rw [copied, if_neg nonempty]
  rfl

/-- The offsets of the columns and of the separator, and the parts between them. -/
theorem copyParts_credentials {text : ByteString} {start first separator last : ℕ}
    (text_eq : text =
      scheme ++ ((username ++ 58 :: password) ++ 64 :: (server ++ 58 :: port)))
    (start_eq : start = scheme.length) (first_eq : first = start + username.length + 1)
    (separator_eq : separator = first + password.length + 1)
    (last_eq : last = separator + server.length + 1) (nonempty : port ≠ []) :
    copyParts text start first last (some separator) =
      some ⟨copied server, BitVec.ofInt 32 (strtol port),
        (copied username).map removeProxyStringEscaping,
        (copied password).map removeProxyStringEscaping⟩ := by
  have size : text.length = last + port.length := by
    rw [text_eq]
    simp only [List.length_append, List.length_cons]
    omega
  have username_copy : copyPart text start ((first : ℤ) - start - 1) = some (copied username) := by
    apply @copyPart_of_eq _ scheme _ (58 :: (password ++ 64 :: (server ++ 58 :: port)))
    · simp [text_eq]
    · exact start_eq
    · omega
  have password_copy : copyPart text first ((separator : ℤ) - first - 1) =
      some (copied password) := by
    apply @copyPart_of_eq _ (scheme ++ username ++ [58]) _ (64 :: (server ++ 58 :: port))
    · simp [text_eq]
    · simp only [List.length_append, List.length_singleton]
      omega
    · omega
  have server_copy : copyPart text separator ((last : ℤ) - separator - 1) =
      some (copied server) := by
    apply @copyPart_of_eq _ (scheme ++ username ++ [58] ++ password ++ [64]) _ (58 :: port)
    · simp [text_eq]
    · simp only [List.length_append, List.length_singleton]
      omega
    · omega
  have port_copy : copyPart text last ((text.length : ℤ) - last) = some (copied port) := by
    apply @copyPart_of_eq _ (scheme ++ username ++ [58] ++ password ++ [64] ++ server ++ [58]) _ []
    · simp [text_eq]
    · simp only [List.length_append, List.length_singleton]
      omega
    · omega
  rw [copyParts]
  simp only [username_copy, password_copy, server_copy, port_copy, Option.bind_eq_bind,
    Option.bind_some, portNumber_copied nonempty]
  rfl

theorem separate_credentials (mem : scheme ∈ schemes)
    (form : CredentialsForm body username password server port) {counters : Counters}
    (columns : counters.columnCounter ≠ 0)
    (found : (counters.credentialsSeparator <|> strchr (scheme ++ body) 7 64) =
      some (7 + (username ++ 58 :: password).length)) :
    separate (scheme ++ body) 7 counters =
      some (some ⟨copied server, BitVec.ofInt 32 (strtol port),
        (copied username).map removeProxyStringEscaping,
        (copied password).map removeProxyStringEscaping⟩) := by
  have seven := length_of_mem_schemes mem
  have positive := List.length_pos_iff.mpr form.port_ne
  have long := form.long
  have first : strchr (scheme ++ body) 7 58 = some (7 + username.length) := by
    have skipped := @strchr_eq scheme username (password ++ 64 :: (server ++ 58 :: port)) 58
      form.username_column
    rw [form.body_eq]
    simpa [seven] using skipped
  have last : strrchr (scheme ++ body) 7 58 =
      some (7 + (username ++ 58 :: password ++ 64 :: server).length) := by
    have skipped := @strrchr_eq scheme port 58 (username ++ 58 :: password ++ 64 :: server)
      form.port_column
    rw [form.body_eq]
    simpa [seven] using skipped
  have size := congrArg List.length form.body_eq
  simp only [List.length_append, List.length_cons] at size first last found
  have accepted : isRefused (scheme ++ body) 7 (some (7 + username.length + 1))
      (some (7 + (username.length + (password.length + 1) + (server.length + 1)) + 1))
      (some (7 + (username.length + (password.length + 1)) + 1)) = false := by
    simp only [isRefused, List.length_append, seven, size, Bool.or_eq_false_iff,
      decide_eq_false_iff_not]
    omega
  rw [separate, if_neg columns, first, last, found]
  simp only [Option.map_some, accepted, Bool.false_eq_true, if_false]
  rw [@copyParts_credentials scheme username password server port]
  · rfl
  · rw [form.body_eq]
  · exact seven.symm
  · rfl
  · omega
  · omega
  · exact form.port_ne

theorem copyParts_server {text : ByteString} {start first last : ℕ}
    (text_eq : text = scheme ++ (server ++ 58 :: port)) (start_eq : start = scheme.length)
    (first_eq : first = start + server.length + 1) (nonempty : port ≠ []) :
    copyParts text start first last none =
      some ⟨copied server, BitVec.ofInt 32 (strtol port), none, none⟩ := by
  have size : text.length = first + port.length := by
    rw [text_eq]
    simp only [List.length_append, List.length_cons]
    omega
  have server_copy : copyPart text start ((first : ℤ) - start - 1) = some (copied server) := by
    apply @copyPart_of_eq _ scheme _ (58 :: port)
    · exact text_eq
    · exact start_eq
    · omega
  have port_copy : copyPart text first ((text.length : ℤ) - first) = some (copied port) := by
    apply @copyPart_of_eq _ (scheme ++ server ++ [58]) _ []
    · simp [text_eq]
    · simp only [List.length_append, List.length_singleton]
      omega
    · omega
  rw [copyParts]
  simp only [server_copy, port_copy, Option.bind_eq_bind, Option.bind_some,
    portNumber_copied nonempty]
  rfl

/-- A body without credentials is cut at its first column, whatever follows. -/
theorem separate_server (mem : scheme ∈ schemes) (form : ServerForm body server port)
    {counters : Counters} (columns : counters.columnCounter ≠ 0)
    (found : counters.credentialsSeparator = none) :
    separate (scheme ++ body) 7 counters =
      some (some ⟨copied server, BitVec.ofInt 32 (strtol port), none, none⟩) := by
  have seven := length_of_mem_schemes mem
  have positive := List.length_pos_iff.mpr form.port_ne
  have long := form.long
  have first : strchr (scheme ++ body) 7 58 = some (7 + server.length) := by
    have skipped := @strchr_eq scheme server port 58 form.server_column
    rw [form.body_eq]
    simpa [seven] using skipped
  have column : 58 ∈ body := by
    rw [form.body_eq]
    simp
  rcases exists_last_column column with ⟨front, back, split, absent⟩
  have last : strrchr (scheme ++ body) 7 58 = some (7 + front.length) := by
    have skipped := @strrchr_eq scheme back 58 front absent
    rw [split]
    simpa [seven] using skipped
  have noAt : strchr (scheme ++ body) 7 64 = none := by
    have skipped := @strchr_eq_none scheme body 64 form.noSeparator
    rwa [seven] at skipped
  have size := congrArg List.length form.body_eq
  have size' := congrArg List.length split
  simp only [List.length_append, List.length_cons] at size size'
  have order : server.length ≤ front.length := by
    by_contra shorter
    have front_prefix : front ++ [58] <+: body := ⟨back, by rw [split]; simp⟩
    have server_prefix : server <+: body := ⟨58 :: port, form.body_eq.symm⟩
    have inside : front ++ [58] <+: server := by
      apply List.prefix_of_prefix_length_le front_prefix server_prefix
      rw [List.length_append, List.length_singleton]
      omega
    exact form.server_column (inside.subset (by simp))
  have some_back : 0 < back.length := by
    apply List.length_pos_iff.mpr
    rintro rfl
    have ends : body.getLast? = port.getLast? := by
      rw [form.body_eq, List.getLast?_append_cons, List.getLast?_cons_of_ne_nil form.port_ne]
    apply form.port_end
    rw [← ends, split, List.getLast?_append_cons, List.getLast?_singleton]
  have accepted : isRefused (scheme ++ body) 7 (some (7 + server.length + 1))
      (some (7 + front.length + 1)) none = false := by
    simp only [isRefused, List.length_append, seven, Bool.or_eq_false_iff,
      decide_eq_false_iff_not]
    omega
  have both : (counters.credentialsSeparator <|> strchr (scheme ++ body) 7 64) = none := by
    rw [found, noAt]
    rfl
  rw [separate, if_neg columns, first, last, both]
  simp only [Option.map_some, Option.map_none, accepted, Bool.false_eq_true, if_false]
  rw [@copyParts_server scheme server port]
  · rfl
  · rw [form.body_eq]
  · exact seven.symm
  · rfl
  · exact form.port_ne

theorem parse_server (mem : scheme ∈ schemes) (form : ServerForm body server port) :
    parseHttpProxyData (scheme ++ body) =
      some (some ⟨copied server, BitVec.ofInt 32 (strtol port), none, none⟩) := by
  have nonempty : body ≠ [] := by
    rw [form.body_eq]
    simp
  have columns : body.count 58 = port.count 58 + 1 := by
    rw [form.body_eq, List.count_append, List.count_eq_zero.mpr form.server_column,
      List.count_cons_self, Nat.zero_add]
  have few : 1 + body.count 58 ≤ 3 := by
    have atMost := form.port_columns
    omega
  have passed := @scan_of_escaped 47 7 body ⟨none, 0, 1⟩ form.supported
    (escaped_of_notMem form.noSeparator) few
  rw [parse_scheme mem nonempty, passed]
  apply separate_server mem form
  · exact Nat.succ_ne_zero _ ∘ (Nat.add_comm _ _).trans
  · rfl

theorem scan_separated {before after : ByteString}
    (supported : ∀ byte ∈ before ++ 64 :: after, IsSupported byte) (escaped : Escaped 47 before)
    (plain : lastOf 47 before ≠ 92) (others : Escaped 64 after)
    (few : before.count 58 + after.count 58 ≤ 2) :
    scan (some 47) 7 (before ++ 64 :: after) ⟨none, 0, 1⟩ =
      some ⟨some (7 + before.length), 1, 1 + before.count 58 + after.count 58⟩ := by
  have first := @scan_of_escaped 47 7 before ⟨none, 0, 1⟩
    (fun byte mem => supported byte (List.mem_append_left _ mem)) escaped (by dsimp only; omega)
  have second := @scan_of_escaped 64 (7 + before.length + 1) after
    ⟨some (7 + before.length), 1, 1 + before.count 58⟩
    (fun byte mem => supported byte (List.mem_append_right _ (List.mem_cons_of_mem _ mem))) others
    (by dsimp only; omega)
  rw [scan_append, first, Option.bind_some, scan_separator plain rfl]
  exact second

theorem parse_credentials (mem : scheme ∈ schemes)
    (form : CredentialsForm body username password server port) :
    parseHttpProxyData (scheme ++ body) =
      some (some ⟨copied server, BitVec.ofInt 32 (strtol port),
        (copied username).map removeProxyStringEscaping,
        (copied password).map removeProxyStringEscaping⟩) := by
  have seven := length_of_mem_schemes mem
  have nonempty : body ≠ [] := by
    rw [form.body_eq]
    simp
  have columns_before : (username ++ 58 :: password).count 58 = 1 := by
    rw [List.count_append, List.count_cons_self, List.count_eq_zero.mpr form.username_column,
      List.count_eq_zero.mpr form.password_column]
  have columns_after : (server ++ 58 :: port).count 58 = 1 := by
    rw [List.count_append, List.count_cons_self, List.count_eq_zero.mpr form.server_column,
      List.count_eq_zero.mpr form.port_column]
  have supported := form.supported
  rw [parse_scheme mem nonempty]
  rcases form.separates with ⟨escaped, plain, others⟩ | ⟨absent, escape, others⟩
  · rw [form.body_eq] at supported
    have passed := scan_separated supported escaped plain others (by omega)
    rw [← form.body_eq] at passed
    rw [passed]
    apply separate_credentials mem form
    · dsimp only
      omega
    · rfl
  · have escaped : Escaped 47 body := by
      rw [form.body_eq, escaped_append]
      exact ⟨escaped_of_notMem absent, fun _ => escape, others⟩
    have columns : body.count 58 = 2 := by
      rw [form.body_eq, List.count_append, columns_before,
        List.count_cons_of_ne (by decide), columns_after]
    have passed := @scan_of_escaped 47 7 body ⟨none, 0, 1⟩ supported escaped
      (by rw [columns])
    rw [passed]
    apply separate_credentials mem form
    · rw [columns]
      exact Nat.succ_ne_zero _
    · have found := @strchr_eq scheme (username ++ 58 :: password) (server ++ 58 :: port) 64 absent
      rw [← form.body_eq, seven] at found
      rw [found]
      rfl

/-- Of two separators of a text the later one is in what follows the earlier one. -/
theorem exists_between {front back before after : ByteString} {first second : UInt8}
    (same : front ++ first :: back = before ++ second :: after)
    (order : front.length < before.length) :
    ∃ between, before = front ++ first :: between ∧ back = between ++ second :: after := by
  rcases List.append_eq_append_iff.mp same with ⟨more, rfl, rest⟩ | ⟨more, rfl, _⟩
  · cases more with
    | nil =>
        rw [List.append_nil] at order
        exact absurd order (Nat.lt_irrefl _)
    | cons byte between =>
        rw [List.cons_append] at rest
        injection rest with byte_eq rest
        exact ⟨between, by rw [byte_eq], rest⟩
  · rw [List.length_append] at order
    omega

/-- What is not refused has a first and a last column, in the right places. -/
theorem separate_cases (mem : scheme ∈ schemes) {counters : Counters}
    (accepted : separate (scheme ++ body) 7 counters ≠ some none) :
    ∃ server rest front port, body = server ++ 58 :: rest ∧ 58 ∉ server ∧
      body = front ++ 58 :: port ∧ 58 ∉ port ∧ port ≠ [] ∧
      match counters.credentialsSeparator <|> strchr (scheme ++ body) 7 64 with
      | none => 3 ≤ body.length
      | some separator => 7 ≤ body.length ∧ 7 + server.length < separator ∧
          separator < 7 + front.length := by
  have seven := length_of_mem_schemes mem
  rw [separate] at accepted
  split at accepted
  · exact absurd rfl accepted
  by_cases column : 58 ∈ body
  · rcases List.eq_append_cons_of_mem column with ⟨server, rest, split_eq, absent⟩
    rcases exists_last_column column with ⟨front, port, split_eq', absent'⟩
    have first : strchr (scheme ++ body) 7 58 = some (7 + server.length) := by
      have skipped := @strchr_eq scheme server rest 58 absent
      rwa [← split_eq, seven] at skipped
    have last : strrchr (scheme ++ body) 7 58 = some (7 + front.length) := by
      have skipped := @strrchr_eq scheme port 58 front absent'
      rwa [← split_eq', seven] at skipped
    have size := congrArg List.length split_eq
    have size' := congrArg List.length split_eq'
    simp only [List.length_append, List.length_cons] at size size'
    simp only [first, last, Option.map_some] at accepted
    split at accepted
    · exact absurd rfl accepted
    next passes =>
      rw [Bool.not_eq_true] at passes
      refine ⟨server, rest, front, port, split_eq, absent, split_eq', absent', ?_, ?_⟩
      · rintro rfl
        rw [List.length_nil] at size'
        simp only [isRefused, List.length_append, seven, Bool.or_eq_false_iff,
          decide_eq_false_iff_not] at passes
        omega
      · cases separator : counters.credentialsSeparator <|> strchr (scheme ++ body) 7 64 with
        | none =>
            simp only [isRefused, separator, Option.map_none, List.length_append, seven,
              Bool.or_eq_false_iff, decide_eq_false_iff_not] at passes
            dsimp only
            omega
        | some separator =>
            simp only [isRefused, separator, Option.map_some, List.length_append, seven,
              Bool.or_eq_false_iff, decide_eq_false_iff_not] at passes
            dsimp only
            omega
  · have nothing : strchr (scheme ++ body) 7 58 = none := by
      have skipped := @strchr_eq_none scheme body 58 column
      rwa [seven] at skipped
    rw [nothing] at accepted
    exact absurd rfl accepted

/-- Credentials between the prefix and a separator that is between the columns. -/
theorem credentials_of_places {before after rest front : ByteString}
    (body_eq : body = before ++ 64 :: after) (separates : Separates before after)
    (supported : ∀ byte ∈ body, IsSupported byte) (few : body.count 58 ≤ 2)
    (long : 7 ≤ body.length) (split_eq : body = username ++ 58 :: rest) (absent : 58 ∉ username)
    (split_eq' : body = front ++ 58 :: port) (absent' : 58 ∉ port) (some_port : port ≠ [])
    (first : username.length < before.length) (last : before.length < front.length) :
    ∃ password server, CredentialsForm body username password server port := by
  rcases exists_between (split_eq.symm.trans body_eq) first with ⟨password, rfl, _⟩
  rcases exists_between (body_eq.symm.trans split_eq') last with ⟨server, rfl, rfl⟩
  have columns : password.count 58 + server.count 58 = 0 := by
    rw [body_eq, List.count_append, List.count_append, List.count_cons_self,
      List.count_cons_of_ne (by decide), List.count_append, List.count_cons_self] at few
    omega
  have noPassword : password.count 58 = 0 := by omega
  have noServer : server.count 58 = 0 := by omega
  exact ⟨password, server, {
    body_eq := body_eq
    username_column := absent
    password_column := List.count_eq_zero.mp noPassword
    server_column := List.count_eq_zero.mp noServer
    port_column := absent'
    separates := separates
    supported := supported
    port_ne := some_port
    long := long }⟩

/-- What is not refused has one of the two forms. -/
theorem forms_of_parse (mem : scheme ∈ schemes) (nonempty : body ≠ [])
    (accepted : parseHttpProxyData (scheme ++ body) ≠ some none) :
    (∃ server port, ServerForm body server port) ∨
      ∃ username password server port, CredentialsForm body username password server port := by
  have seven := length_of_mem_schemes mem
  rw [parse_scheme mem nonempty] at accepted
  cases passed : scan (some 47) 7 body ⟨none, 0, 1⟩ with
  | none =>
      rw [passed] at accepted
      exact absurd rfl accepted
  | some counters =>
      rw [passed] at accepted
      rcases scan_cases passed (by decide) with ⟨supported, columns, bound, found⟩
      rcases separate_cases mem accepted with
        ⟨server, rest, front, port, split_eq, absent, split_eq', absent', some_port, places⟩
      have few : body.count 58 ≤ 2 := by
        dsimp only at columns
        omega
      rcases found with ⟨escaped, none_found⟩ |
        ⟨_, before, after, body_eq, escaped, plain, others, here⟩
      · by_cases at_sign : 64 ∈ body
        · rcases List.eq_append_cons_of_mem at_sign with ⟨before, after, body_eq, noOther⟩
          have separator : (counters.credentialsSeparator <|> strchr (scheme ++ body) 7 64) =
              some (7 + before.length) := by
            have skipped := @strchr_eq scheme before after 64 noOther
            rw [none_found, body_eq]
            rwa [seven] at skipped
          rw [separator] at places
          rw [body_eq, escaped_append] at escaped
          have separates : Separates before after :=
            Or.inr ⟨noOther, escaped.2.1 rfl, escaped.2.2⟩
          right
          rcases credentials_of_places body_eq separates supported few places.1 split_eq absent
            split_eq' absent' some_port (Nat.lt_of_add_lt_add_left places.2.1)
            (Nat.lt_of_add_lt_add_left places.2.2) with ⟨password, host, form⟩
          exact ⟨server, password, host, port, form⟩
        · have separator : (counters.credentialsSeparator <|> strchr (scheme ++ body) 7 64) =
              none := by
            have skipped := @strchr_eq_none scheme body 64 at_sign
            rw [none_found]
            rwa [seven] at skipped
          rw [separator] at places
          have ends : body.getLast? ≠ some 58 := by
            rw [split_eq', List.getLast?_append_cons, List.getLast?_cons_of_ne_nil some_port]
            exact fun column => absent' (List.mem_of_getLast? column)
          have some_rest : rest ≠ [] := by
            rintro rfl
            rw [split_eq, List.getLast?_append_cons] at ends
            exact ends rfl
          left
          refine ⟨server, rest, split_eq, absent, ?_, at_sign, supported, some_rest, ?_, places⟩
          · rw [split_eq, List.count_append, List.count_cons_self] at few
            omega
          · rwa [split_eq, List.getLast?_append_cons,
              List.getLast?_cons_of_ne_nil some_rest] at ends
      · have separator : (counters.credentialsSeparator <|> strchr (scheme ++ body) 7 64) =
            some (7 + before.length) := by
          rw [here]
          rfl
        rw [separator] at places
        right
        rcases credentials_of_places body_eq (Or.inl ⟨escaped, plain, others⟩) supported few
          places.1 split_eq absent split_eq' absent' some_port
          (Nat.lt_of_add_lt_add_left places.2.1) (Nat.lt_of_add_lt_add_left places.2.2) with
          ⟨password, host, form⟩
        exact ⟨server, password, host, port, form⟩

end Forms

end OsConfig.ProxyUtils
