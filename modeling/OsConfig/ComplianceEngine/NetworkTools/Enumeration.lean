import OsConfig.ComplianceEngine.NetworkTools

/-!
# Which sockets are enumerated

`socketOf` is the socket that a line of `ss` reports: the fifth of six columns or
more is the local address. The interface of a socket stands behind a percent
sign, inside the brackets of an IPv6 address or behind them.

The enumeration asks for the column of the processes as well, and knows an
interface behind an unbracketed address and inside the brackets only.
-/

namespace OsConfig.ComplianceEngine.NetworkTools

open ByteString InternetAddresses

/-- The type of a socket and its local address, from six columns or more. -/
def socketColumn (line : ByteString) : Option (SocketType × ByteString) :=
  match columns line with
  | netid :: _ :: _ :: _ :: localColumn :: _ :: _ =>
      (socketType netid).map fun type => (type, localColumn)
  | _ => none

/-- The number of a port. -/
def portOf (text : ByteString) : Option (BitVec 16) :=
  if text ≠ [] ∧ text.all Numerals.isDecimal ∧ Numerals.value text < 2 ^ 16 then
    some (BitVec.ofNat 16 (Numerals.value text))
  else
    none

/-- A star is the wildcard address of IPv4. -/
def addressOf (text : ByteString) : Option IpAddress :=
  if text = bytes "*" then some (.ip4 0) else inetPton (unbracketed text)

/-- An address with the interface that stands inside its brackets or behind it. -/
def hostOf (host : ByteString) : Option (IpAddress × ByteString) :=
  if Bracketed host then
    (inetPton (cutInterface (unbracketed host)).1).map fun address =>
      (address, (cutInterface (unbracketed host)).2)
  else
    (addressOf (cutInterface host).1).map fun address => (address, (cutInterface host).2)

/-- The socket at a local address, if address and port are valid. -/
def socketAt (type : SocketType) (localColumn : ByteString) : Option OpenPort :=
  if 58 ∈ localColumn then
    (portOf (portText localColumn)).bind fun port =>
      (hostOf (hostText localColumn)).map fun (address, interface) =>
        { type, port, interface, address }
  else
    none

def socketOf (line : ByteString) : Option OpenPort :=
  (socketColumn line).bind fun (type, localColumn) => socketAt type localColumn

/-- What `ss` prints on a line: the port of a socket is a number below 65536 or a star. -/
structure WellFormed (line : ByteString) : Prop where
  nulFree : 0 ∉ line
  port : ∀ entry ∈ socketColumn line, 58 ∈ entry.2 →
    (portOf (portText entry.2)).isSome ∨ portText entry.2 = bytes "*"

/-- The interface stands behind a star or behind the brackets. -/
def InterfaceBehind (host : ByteString) : Prop :=
  ¬Bracketed host ∧ 37 ∈ host ∧
    ((cutInterface host).1 = bytes "*" ∨ Bracketed (cutInterface host).1)

instance (host : ByteString) : Decidable (InterfaceBehind host) :=
  inferInstanceAs (Decidable (_ ∧ _))

/-- The line has a column for the processes, and the interface is where the enumeration
looks for it. -/
structure Enumerable (line : ByteString) : Prop where
  process : 7 ≤ (columns line).length
  interface : ∀ entry ∈ socketColumn line, ¬InterfaceBehind (hostText entry.2)

section Hosts

variable {host : ByteString}

theorem head_of_bracketed (bracketed : Bracketed host) : ∃ rest, host = 91 :: rest := by
  cases host with
  | nil => cases bracketed.2.1
  | cons byte rest => exact ⟨rest, by simpa using bracketed.2.1⟩

theorem cutInterface_of_not_mem (plain : 37 ∉ host) : cutInterface host = (host, []) := by
  have letters : ∀ byte ∈ host, decide (byte ≠ 37) = true := by
    intro byte mem
    rw [decide_eq_true_eq]
    rintro rfl
    exact plain mem
  unfold cutInterface
  rw [List.takeWhile_eq_self_iff.mpr letters, List.dropWhile_eq_nil_iff.mpr letters]
  rfl

theorem inetPton_of_bracketed (bracketed : Bracketed host) : inetPton host = none := by
  obtain ⟨rest, rfl⟩ := head_of_bracketed bracketed
  exact inetPton_bracket rest

theorem cString_cutInterface (nulFree : 0 ∉ host) :
    cString (cutInterface host).1 = (cutInterface host).1 := by
  apply cString_of_not_mem
  intro mem
  exact nulFree ((List.takeWhile_prefix _).subset mem)

theorem not_mem_unbracketed (nulFree : 0 ∉ host) : 0 ∉ unbracketed host := by
  unfold unbracketed
  split
  · intro mem
    exact nulFree (List.mem_of_mem_drop (List.mem_of_mem_dropLast mem))
  · exact nulFree

theorem unbracketed_of_not_bracketed (plain : ¬Bracketed host) : unbracketed host = host :=
  if_neg plain

/-- The host of a socket is read unless its interface stands behind a star or brackets. -/
theorem readHost_eq (nulFree : 0 ∉ host) :
    readHost host = if InterfaceBehind host then none else hostOf host := by
  by_cases wildcard : host = bytes "*"
  · subst wildcard
    decide
  have reads : readHost host = (inetPton (cutInterface (unbracketed host)).1).map fun address =>
      (address, (cutInterface (unbracketed host)).2) := by
    unfold readHost
    rw [if_neg wildcard]
    dsimp only
    rw [cString_cutInterface (not_mem_unbracketed nulFree)]
  rw [reads]
  by_cases bracketed : Bracketed host
  · have inside : ¬InterfaceBehind host := fun behind => behind.1 bracketed
    rw [if_neg inside, hostOf, if_pos bracketed]
  · rw [hostOf, if_neg bracketed, unbracketed_of_not_bracketed bracketed]
    by_cases star : (cutInterface host).1 = bytes "*"
    · have suffixed : 37 ∈ host := by
        by_contra plain
        rw [cutInterface_of_not_mem plain] at star
        exact wildcard star
      have refused : inetPton (bytes "*") = none := inetPton_star []
      rw [if_pos ⟨bracketed, suffixed, Or.inl star⟩, star, refused]
      rfl
    · rw [addressOf, if_neg star]
      by_cases boxed : Bracketed (cutInterface host).1
      · have suffixed : 37 ∈ host := by
          by_contra plain
          rw [cutInterface_of_not_mem plain] at boxed
          exact bracketed boxed
        rw [if_pos ⟨bracketed, suffixed, Or.inr boxed⟩, inetPton_of_bracketed boxed]
        rfl
      · have inFront : ¬InterfaceBehind host := by
          rintro ⟨-, -, behind | behind⟩
          · exact star behind
          · exact boxed behind
        rw [if_neg inFront, unbracketed_of_not_bracketed boxed]

end Hosts

section Lines

variable {line : ByteString}

theorem readSigned_of_portOf {text : ByteString} {port : BitVec 16}
    (number : portOf text = some port) :
    ∃ value : ℤ, readSigned 32 text = some (value, []) ∧ BitVec.ofInt 16 value = port := by
  unfold portOf at number
  split at number
  next numeral =>
    obtain ⟨some_text, digits, small⟩ := numeral
    cases number
    have fits : (Numerals.value text : ℤ) < 2 ^ (32 - 1) := by omega
    exact ⟨_, readSigned_digits some_text (List.all_eq_true.mp digits) fits,
      BitVec.ofInt_natCast 16 _⟩
  next => cases number

theorem mem_columns {line column : ByteString} {byte : UInt8} (mem : column ∈ columns line)
    (inside : byte ∈ column) : byte ∈ line :=
  (Words.isWord_of_mem mem).2.subset inside

theorem readSocket_of_few_columns (few : (columns line).length < 7) : readSocket line = none := by
  have reads := readWords_columns 7 line
  rw [if_pos few, Option.map_eq_none_iff] at reads
  unfold readSocket
  rw [reads]
  split
  · rfl
  · rfl

theorem readSocket_of_columns (unbroken : 10 ∉ line)
    {netid state recvq sendq localColumn peer process : ByteString} {others : List ByteString}
    (parts : columns line =
      netid :: state :: recvq :: sendq :: localColumn :: peer :: process :: others) :
    readSocket line = (socketType netid).bind fun type =>
      if 58 ∈ localColumn then
        (readSigned 32 (portText localColumn)).bind fun (number, _) =>
          (readHost (hostText localColumn)).map fun (address, interface) =>
            { type, port := BitVec.ofInt 16 number, interface, address }
      else
        none := by
  have reads := readWords_columns 7 line
  rw [parts, if_neg (by simp)] at reads
  obtain ⟨⟨fields, rest⟩, read, fields_eq⟩ := Option.map_eq_some_iff.mp reads
  dsimp only at fields_eq
  subst fields_eq
  unfold readSocket
  by_cases comment : line.head? = some 35
  · rw [if_pos (Or.inr (Or.inr comment))]
    have unsupported : socketType netid = none := by
      cases line with
      | nil => cases comment
      | cons byte rest =>
          cases comment
          obtain ⟨word, later, first⟩ :=
            Words.words_cons_letter (show isSpace 35 = false from rfl) rest
          have begins : netid = 35 :: word := by
            rw [columns, first] at parts
            exact (List.cons.inj parts).1.symm
          rw [begins]
          rfl
    rw [unsupported]
    rfl
  · have regular : ¬(line = [] ∨ line.head? = some 10 ∨ line.head? = some 35) := by
      rintro (empty | newline | here)
      · rw [empty] at parts
        cases parts
      · exact unbroken (List.mem_of_mem_head? newline)
      · exact comment here
    rw [if_neg regular, read]
    cases type : socketType netid with
    | none => simp [type]
    | some type =>
        simp only [type, List.take_succ_cons, List.take_zero, Option.bind_some]
        split
        · cases readSigned 32 (portText localColumn) with
          | none => rfl
          | some found => rfl
        · rfl

/-- The two ways to read a local address agree, but for an interface that stands behind. -/
theorem readColumn_eq {localColumn : ByteString} (nulFree : 0 ∉ localColumn) (type : SocketType)
    (port : (portOf (portText localColumn)).isSome ∨ portText localColumn = bytes "*") :
    ((readSigned 32 (portText localColumn)).bind fun (number, _) =>
      (readHost (hostText localColumn)).map fun (address, interface) =>
        ({ type, port := BitVec.ofInt 16 number, interface, address } : OpenPort)) =
    if InterfaceBehind (hostText localColumn) then none
    else
      (portOf (portText localColumn)).bind fun port =>
        (hostOf (hostText localColumn)).map fun (address, interface) =>
          { type, port, interface, address } := by
  have nulFreeHost : 0 ∉ hostText localColumn := by
    intro mem
    exact nulFree ((List.rdropWhile_prefix _ _).subset (List.mem_of_mem_dropLast mem))
  rw [readHost_eq nulFreeHost]
  rcases port with number | star
  · obtain ⟨port, isPort⟩ := Option.isSome_iff_exists.mp number
    obtain ⟨value, reads, same⟩ := readSigned_of_portOf isPort
    rw [reads, isPort, Option.bind_some, Option.bind_some]
    dsimp only
    rw [same]
    split
    · rfl
    · rfl
  · have unread : readSigned 32 (bytes "*") = none := by decide
    have noPort : portOf (bytes "*") = none := by decide
    rw [star, unread, noPort]
    split
    · rfl
    · rfl

theorem columns_of_seven (process : 7 ≤ (columns line).length) :
    ∃ netid state recvq sendq localColumn peer process others, columns line =
      netid :: state :: recvq :: sendq :: localColumn :: peer :: process :: others := by
  match parts : columns line with
  | netid :: state :: recvq :: sendq :: localColumn :: peer :: process :: others =>
      exact ⟨netid, state, recvq, sendq, localColumn, peer, process, others, rfl⟩
  | [] | [_] | [_, _] | [_, _, _] | [_, _, _, _] | [_, _, _, _, _] | [_, _, _, _, _, _] =>
      rw [parts] at process
      simp at process

theorem readSocket_of_process (unbroken : 10 ∉ line) (wellFormed : WellFormed line)
    (process : 7 ≤ (columns line).length) :
    readSocket line = (socketColumn line).bind fun (type, localColumn) =>
      if InterfaceBehind (hostText localColumn) then none else socketAt type localColumn := by
  obtain ⟨netid, state, recvq, sendq, localColumn, peer, process, others, parts⟩ :=
    columns_of_seven process
  have reported : socketColumn line =
      (socketType netid).map fun type => (type, localColumn) := by
    rw [socketColumn, parts]
  have nulFree : 0 ∉ localColumn :=
    fun mem => wellFormed.nulFree (mem_columns (by rw [parts]; simp) mem)
  rw [readSocket_of_columns unbroken parts, reported]
  cases supported : socketType netid with
  | none => rfl
  | some type =>
      rw [supported] at reported
      simp only [Option.bind_some, Option.map_some, socketAt]
      by_cases separated : 58 ∈ localColumn
      · rw [if_pos separated, if_pos separated]
        exact readColumn_eq nulFree type (wellFormed.port (type, localColumn) reported separated)
      · rw [if_neg separated, if_neg separated, ite_self]

/-- A line is read as the socket it reports if it has the column of the processes and its
interface stands where it is looked for. -/
theorem readSocket_of_enumerable (unbroken : 10 ∉ line) (wellFormed : WellFormed line)
    (enumerable : Enumerable line) : readSocket line = socketOf line := by
  rw [readSocket_of_process unbroken wellFormed enumerable.process, socketOf]
  cases reported : socketColumn line with
  | none => rfl
  | some entry =>
      rw [Option.bind_some, Option.bind_some]
      exact if_neg (enumerable.interface entry reported)

/-- Any other line is passed over. -/
theorem readSocket_of_not_enumerable (unbroken : 10 ∉ line) (wellFormed : WellFormed line)
    (missed : ¬Enumerable line) : readSocket line = none := by
  by_cases process : 7 ≤ (columns line).length
  · rw [readSocket_of_process unbroken wellFormed process]
    cases reported : socketColumn line with
    | none => rfl
    | some entry =>
        have behind : InterfaceBehind (hostText entry.2) := by
          by_contra inFront
          apply missed
          refine ⟨process, fun other mem => ?_⟩
          rw [reported] at mem
          cases mem
          exact inFront
        rw [Option.bind_some]
        exact if_pos behind
  · exact readSocket_of_few_columns (not_le.mp process)

end Lines

section Listings

variable {α β : Type*}

variable {cautious reader : α → Option β} {items : List α}

theorem length_filterMap_le
    (agrees : ∀ item ∈ items, cautious item = reader item ∨ cautious item = none) :
    (items.filterMap cautious).length ≤ (items.filterMap reader).length := by
  induction items with
  | nil => exact le_rfl
  | cons item items ih =>
      rw [List.forall_mem_cons] at agrees
      have later := ih agrees.2
      rw [List.filterMap_cons, List.filterMap_cons]
      rcases agrees.1 with same | nothing
      · rw [same]
        cases reader item with
        | none => exact later
        | some found => exact Nat.succ_le_succ later
      · rw [nothing]
        cases reader item with
        | none => exact later
        | some found => exact Nat.le_succ_of_le later

/-- A reader that passes over more items reads the same list exactly if it passes over no item
that has something to read. -/
theorem filterMap_eq_filterMap_iff
    (agrees : ∀ item ∈ items, cautious item = reader item ∨ cautious item = none) :
    items.filterMap cautious = items.filterMap reader ↔
      ∀ item ∈ items, (reader item).isSome → cautious item = reader item := by
  induction items with
  | nil => simp
  | cons item items ih =>
      rw [List.forall_mem_cons] at agrees
      rw [List.forall_mem_cons, ← ih agrees.2, List.filterMap_cons, List.filterMap_cons]
      cases read : reader item with
      | none =>
          have nothing : cautious item = none := by
            rcases agrees.1 with same | nothing
            · rw [same, read]
            · exact nothing
          simp [nothing]
      | some found =>
          rcases agrees.1 with same | nothing
          · rw [same, read]
            simp
          · have shorter := length_filterMap_le agrees.2
            rw [nothing]
            constructor
            · intro same
              dsimp only at same
              rw [same, List.length_cons] at shorter
              omega
            · rintro ⟨same, -⟩
              cases same rfl

end Listings

/-- When the open ports are exactly the sockets that the lines report. -/
theorem getOpenPorts_eq_iff {executeCommand : ByteString → Result ByteString}
    {output : ByteString} (printed : executeCommand (bytes "ss -ptuln") = .ok output)
    (wellFormed : ∀ line ∈ getLines output, WellFormed line) :
    getOpenPorts executeCommand = .ok ((getLines output).filterMap socketOf) ↔
      ∀ line ∈ getLines output, (socketOf line).isSome → Enumerable line := by
  have printedPorts : getOpenPorts executeCommand = .ok ((getLines output).filterMap readSocket) := by
    rw [getOpenPorts, printed]
  have agrees : ∀ line ∈ getLines output,
      readSocket line = socketOf line ∨ readSocket line = none := by
    intro line mem
    by_cases enumerable : Enumerable line
    · exact Or.inl (readSocket_of_enumerable (unbroken_of_mem_getLines mem) (wellFormed line mem)
        enumerable)
    · exact Or.inr (readSocket_of_not_enumerable (unbroken_of_mem_getLines mem)
        (wellFormed line mem) enumerable)
  rw [printedPorts, Except.ok.injEq, filterMap_eq_filterMap_iff agrees]
  refine forall₂_congr fun line mem => forall_congr' fun reported => ?_
  constructor
  · intro same
    by_contra missed
    rw [readSocket_of_not_enumerable (unbroken_of_mem_getLines mem) (wellFormed line mem) missed]
      at same
    rw [← same] at reported
    cases reported
  · exact readSocket_of_enumerable (unbroken_of_mem_getLines mem) (wellFormed line mem)

section Listing

/-- What `ss` prints for two sockets of which one process may be seen. -/
def listing : ByteString :=
  bytes "tcp LISTEN 0 128 [::1%lo]:631 [::]:* users:((cupsd))\ntcp LISTEN 0 128 0.0.0.0:22 0.0.0.0:*\n"

theorem wellFormed_of_isSome {line : ByteString} (nulFree : 0 ∉ line)
    (port : ∀ entry ∈ socketColumn line, (portOf (portText entry.2)).isSome) : WellFormed line :=
  ⟨nulFree, fun entry mem _ => Or.inl (port entry mem)⟩

theorem getLines_listing : getLines listing =
    [bytes "tcp LISTEN 0 128 [::1%lo]:631 [::]:* users:((cupsd))",
      bytes "tcp LISTEN 0 128 0.0.0.0:22 0.0.0.0:*"] := by
  decide +kernel

theorem wellFormed_listing : ∀ line ∈ getLines listing, WellFormed line := by
  rw [getLines_listing]
  simp only [List.forall_mem_cons, List.not_mem_nil, false_implies, implies_true, and_true]
  exact ⟨wellFormed_of_isSome (by decide +kernel) (by decide +kernel),
    wellFormed_of_isSome (by decide +kernel) (by decide +kernel)⟩

theorem getOpenPorts_eq_iff_listing :
    getOpenPorts (fun _ => .ok listing) = .ok ((getLines listing).filterMap socketOf) ↔
      ∀ line ∈ getLines listing, (socketOf line).isSome → Enumerable line :=
  getOpenPorts_eq_iff rfl wellFormed_listing

/-- The SSH server listens on all addresses, and its port is lost with the column of the
processes. -/
theorem getOpenPorts_without_processes :
    (∀ line ∈ getLines listing, WellFormed line) ∧
    getOpenPorts (fun _ => .ok listing) =
      .ok [{ type := .stream, port := 631, interface := bytes "lo", address := .ip6 1 }] ∧
    (getLines listing).filterMap socketOf =
      [{ type := .stream, port := 631, interface := bytes "lo", address := .ip6 1 },
        { type := .stream, port := 22, address := .ip4 0 }] :=
  ⟨wellFormed_listing, by decide +kernel, by decide +kernel⟩

end Listing

end OsConfig.ComplianceEngine.NetworkTools
