import OsConfig.Common.Parson
import OsConfig.ComplianceEngine.Indicators

/-!
# Payload formatters

The five formatters that turn a finished indicators tree into the payload of an
audit. `NestedListFormatter` asserts that an undecided alternative is not
compliant and `DebugFormatter` takes the first child of a `not` node without
looking; both answer nothing where that goes wrong. `Node.FormatterSafe` is the
condition on a tree under which it cannot.
-/

namespace OsConfig.ComplianceEngine

/-- The operator names of the rule language. -/
def anyOfName : ByteString := bytes "anyOf"

def allOfName : ByteString := bytes "allOf"

def notName : ByteString := bytes "not"

namespace NestedListFormatter

inductive Ignored where
  | no
  | yes
  deriving DecidableEq

/-- `sEmojiMap`, defined on every pair. -/
def emoji : Status → Ignored → ByteString
  | .compliant, .no => bytes "\u2705"
  | .compliant, .yes => bytes "\u2713"
  | .nonCompliant, .no => bytes "\u274c"
  | .nonCompliant, .yes => [0xF0, 0x9F, 0x87, 0xBD]
  | .notApplicable, .no => bytes "\u2796"
  | .notApplicable, .yes => bytes "\u2013"

def maxNodeCompliantIndicators : ℕ := 5

/-- A line of the list. -/
def line (depth : ℕ) (status : Status) (ignored : Ignored) (text : ByteString) : ByteString :=
  List.replicate depth 9 ++ emoji status ignored ++ bytes " " ++ text ++ bytes "\n"

/-- The number of compliant entries up to and including the next one. -/
def countCompliant (shown : ℕ) (status : Status) : ℕ :=
  if status = .compliant then shown + 1 else shown

/-- Whether a child is shown as ignored: an alternative that is not the last one, or the operand
of a `not` with a determined status. -/
def childIgnored (parent : ByteString) (last : Bool) (status : Status) (ignored : Ignored) :
    Ignored :=
  if (!last ∧ parent = anyOfName) ∨ (parent = notName ∧ status ≠ .notApplicable) then .yes
  else ignored

/-- The loop over the indicators of a node; `shown` counts the compliant ones so far. -/
def formatIndicators (depth : ℕ) (ignored : Ignored) (shown : ℕ) (indicators : List Indicator) :
    ByteString :=
  match indicators with
  | [] => []
  | indicator :: rest =>
      if maxNodeCompliantIndicators < countCompliant shown indicator.status then
        formatIndicators depth ignored (countCompliant shown indicator.status) rest
      else
        line depth indicator.status ignored indicator.message ++
          formatIndicators depth ignored (countCompliant shown indicator.status) rest

mutual

def formatNode (depth : ℕ) (ignored : Ignored) (node : Node) : Option ByteString :=
  match node with
  | ⟨data, children⟩ => do
      let lines ← formatChildren data.procedureName depth ignored 0 children
      return lines ++ formatIndicators depth ignored 0 data.indicators
termination_by structural node

/-- The loop over the children of a node named `parent`. -/
def formatChildren (parent : ByteString) (depth : ℕ) (ignored : Ignored) (shown : ℕ)
    (children : List Node) : Option ByteString :=
  match children with
  | [] => some []
  | child :: rest =>
      if maxNodeCompliantIndicators < countCompliant shown (Node.status child) then
        formatChildren parent depth ignored (countCompliant shown (Node.status child)) rest
      -- the assertion on an alternative that does not decide the result
      else if rest ≠ [] ∧ parent = anyOfName ∧ Node.status child = .compliant then
        none
      else do
        let lines ← formatNode (depth + 1)
          (childIgnored parent rest.isEmpty (Node.status child) ignored) child
        let others ←
          formatChildren parent depth ignored (countCompliant shown (Node.status child)) rest
        return line depth (Node.status child)
            (childIgnored parent rest.isEmpty (Node.status child) ignored)
            (Node.procedureName child) ++ lines ++ others
termination_by structural children

end

def format (root : Node) : Outcome ByteString :=
  match formatNode 1 .no root with
  | none => .aborted
  | some lines => .value (line 0 root.status .no root.procedureName ++ lines)

end NestedListFormatter

namespace CompactListFormatter

def formatIndicator (indicator : Indicator) : ByteString :=
  (if indicator.status = .compliant then bytes "[Compliant] " else bytes "[NonCompliant] ") ++
    indicator.message ++ bytes "\n"

mutual

def formatNode (node : Node) : ByteString :=
  match node with
  | ⟨data, children⟩ => data.indicators.flatMap formatIndicator ++ formatChildren children
termination_by structural node

def formatChildren (children : List Node) : ByteString :=
  match children with
  | [] => []
  | child :: rest => formatNode child ++ formatChildren rest
termination_by structural children

end

def format (root : Node) : Outcome ByteString :=
  .value (formatNode root)

end CompactListFormatter

namespace JsonFormatter

/-- `json_object_set_string` on the object of a node, with the error its failure gives. -/
def setString (text : ByteString) : Result JsonValue :=
  match JsonValue.initString text with
  | some value => .ok value
  | none => .error { message := bytes "Failed to set JSON object string", code := Errno.ENOMEM }

def statusText (status : Status) : ByteString :=
  if status = .compliant then bytes "Compliant" else bytes "NonCompliant"

/-- The array entry of an indicator. -/
def indicatorValue (indicator : Indicator) : Result JsonValue := do
  let message ← setString indicator.message
  let status ← setString (statusText indicator.status)
  return .object [(bytes "message", message), (bytes "status", status)]

mutual

/-- `JsonFormatter::FormatNode`: the entries for the children, then those for the indicators. -/
def formatNode (node : Node) : Result (List JsonValue) :=
  match node with
  | ⟨data, children⟩ => do
      let entries ← formatChildren children
      let messages ← data.indicators.mapM indicatorValue
      return entries ++ messages
termination_by structural node

def formatChildren (children : List Node) : Result (List JsonValue) :=
  match children with
  | [] => .ok []
  | child :: rest => do
      let procedure ← setString (Node.procedureName child)
      let status ← setString (statusText (Node.status child))
      let entries ← formatNode child
      let others ← formatChildren rest
      return .object [(bytes "procedure", procedure), (bytes "status", status),
        (bytes "indicators", .array entries)] :: others
termination_by structural children

end

def format (root : Node) : Outcome ByteString :=
  match formatNode root with
  | .error failure => .error failure
  | .ok entries => .value (JsonValue.array entries).serializeToStringPretty

end JsonFormatter

namespace DebugFormatter

/-- The text after the node, with its verdict. -/
def verdict (status : Status) : ByteString :=
  if status = .compliant then bytes "TRUE" else bytes "FALSE"

/-- The messages of a node, separated by commas. -/
def messages (indicators : List Indicator) : ByteString :=
  ((indicators.map Indicator.message).intersperse (bytes ", ")).flatten

mutual

def formatNode (node : Node) : Option ByteString :=
  match node with
  | ⟨data, children⟩ =>
      if data.procedureName = anyOfName ∨ data.procedureName = allOfName then do
        let operands ← formatChildren true children
        return bytes "\x7b " ++ data.procedureName ++ bytes ": [" ++ operands ++
          bytes "]\x7d == " ++ verdict data.status
      else if data.procedureName = notName then do
        let operand ← formatFirst children
        return bytes "\x7b " ++ data.procedureName ++ bytes ": " ++ operand ++
          bytes "\x7d == " ++ verdict data.status
      else
        some (bytes "\x7b " ++ data.procedureName ++ bytes ": " ++ messages data.indicators ++
          bytes " \x7d == " ++ verdict data.status)
termination_by structural node

/-- The operands of a list operator, separated by commas. -/
def formatChildren (first : Bool) (children : List Node) : Option ByteString :=
  match children with
  | [] => some []
  | child :: rest => do
      let text ← formatNode child
      let others ← formatChildren false rest
      return (if first then [] else bytes ", ") ++ text ++ others
termination_by structural children

/-- `*node.children[0].get()`, formatted. -/
def formatFirst (children : List Node) : Option ByteString :=
  match children with
  | [] => none
  | child :: _ => formatNode child
termination_by structural children

end

/-- `DebugFormatter::Format`: only the first child of the root is shown. -/
def format (root : Node) : Outcome ByteString :=
  match root.children with
  | [] => .error { message := bytes "No children found", code := Errno.EINVAL }
  | child :: _ =>
      match formatNode child with
      | none => .aborted
      | some text => .value text

end DebugFormatter

namespace LastIncomplianceFormatter

mutual

def formatNode (node : Node) : ByteString :=
  match node with
  | ⟨data, children⟩ =>
      match formatLast children with
      | some text => text
      | none =>
          match data.indicators.getLast? with
          | none => bytes "No indicators found for " ++ data.procedureName
          | some indicator => indicator.message
termination_by structural node

def formatLast (children : List Node) : Option ByteString :=
  match children with
  | [] => none
  | child :: rest =>
      match formatLast rest with
      | some text => some text
      | none => some (formatNode child)
termination_by structural children

end

def format (root : Node) : Outcome ByteString :=
  if root.status = .compliant then .value (bytes "Audit passed") else .value (formatNode root)

end LastIncomplianceFormatter

/-- The implementations of `PayloadFormatter`. -/
inductive PayloadFormatter where
  | nestedList
  | compactList
  | json
  | debug
  | lastIncompliance
  deriving DecidableEq

namespace PayloadFormatter

def formatRoot : PayloadFormatter → Node → Outcome ByteString
  | .nestedList => NestedListFormatter.format
  | .compactList => CompactListFormatter.format
  | .json => JsonFormatter.format
  | .debug => DebugFormatter.format
  | .lastIncompliance => LastIncomplianceFormatter.format

/-- `Format`; every formatter asserts that the tree has a root. -/
def format (formatter : PayloadFormatter) (tree : IndicatorsTree) : Outcome ByteString :=
  match tree.root with
  | none => .aborted
  | some root => formatter.formatRoot root

end PayloadFormatter

namespace Node

/-- What the formatters rely on at one node: only the last alternative of an `anyOf` may be
compliant, and a `not` has an operand. -/
structure LocallySafe (node : Node) : Prop where
  anyOf : node.procedureName = anyOfName →
    ∀ child ∈ node.children.dropLast, status child ≠ .compliant
  not : node.procedureName = notName → node.children ≠ []

def FormatterSafe (node : Node) : Prop :=
  node.Everywhere LocallySafe

end Node

namespace NestedListFormatter

theorem formatChildren_isSome {parent : ByteString} (depth : ℕ) (ignored : Ignored)
    (shown : ℕ) {children : List Node}
    (undecided : parent = anyOfName → ∀ child ∈ children.dropLast, Node.status child ≠ .compliant)
    (formatted : ∀ child ∈ children, ∀ depth ignored, (formatNode depth ignored child).isSome) :
    (formatChildren parent depth ignored shown children).isSome := by
  induction children generalizing shown with
  | nil => rfl
  | cons child rest ih =>
      have restUndecided :
          parent = anyOfName → ∀ other ∈ rest.dropLast, Node.status other ≠ .compliant := by
        intro isAnyOf other other_mem
        apply undecided isAnyOf
        cases rest with
        | nil => simp at other_mem
        | cons next rest => exact List.mem_cons_of_mem _ other_mem
      have restFormatted := fun shown =>
        ih shown restUndecided fun other other_mem => formatted other (by simp [other_mem])
      have asserted :
          ¬(rest ≠ [] ∧ parent = anyOfName ∧ Node.status child = .compliant) := by
        rintro ⟨more, isAnyOf, compliant⟩
        apply undecided isAnyOf child _ compliant
        cases rest with
        | nil => exact absurd rfl more
        | cons next rest => simp
      rw [formatChildren, if_neg asserted]
      split
      · exact restFormatted _
      · rcases Option.isSome_iff_exists.mp (restFormatted (countCompliant shown child.status))
          with ⟨others, others_eq⟩
        rcases Option.isSome_iff_exists.mp (formatted child (by simp) (depth + 1)
          (childIgnored parent rest.isEmpty child.status ignored)) with ⟨lines, lines_eq⟩
        simp [others_eq, lines_eq]

theorem formatNode_isSome {node : Node} (safe : node.FormatterSafe) (depth : ℕ)
    (ignored : Ignored) : (formatNode depth ignored node).isSome := by
  induction safe generalizing depth ignored with
  | @intro node here _ ih =>
      rcases node with ⟨data, children⟩
      have formatted := formatChildren_isSome depth ignored 0 here.anyOf ih
      rcases Option.isSome_iff_exists.mp formatted with ⟨lines, lines_eq⟩
      change formatChildren data.procedureName depth ignored 0 children = some lines at lines_eq
      simp [formatNode, lines_eq]

end NestedListFormatter

namespace DebugFormatter

theorem formatChildren_isSome {children : List Node} (first : Bool)
    (formatted : ∀ child ∈ children, (formatNode child).isSome) :
    (formatChildren first children).isSome := by
  induction children generalizing first with
  | nil => rfl
  | cons child rest ih =>
      have restFormatted := ih false fun other other_mem => formatted other (by simp [other_mem])
      rcases Option.isSome_iff_exists.mp restFormatted with ⟨others, others_eq⟩
      rcases Option.isSome_iff_exists.mp (formatted child (by simp)) with ⟨text, text_eq⟩
      simp [formatChildren, others_eq, text_eq]

theorem formatNode_isSome {node : Node} (safe : node.FormatterSafe) :
    (formatNode node).isSome := by
  induction safe with
  | @intro node here _ ih =>
      rcases node with ⟨data, children⟩
      rw [formatNode]
      split
      · rcases Option.isSome_iff_exists.mp (formatChildren_isSome true ih) with ⟨text, text_eq⟩
        change formatChildren true children = some text at text_eq
        simp [text_eq]
      · split
        · rename_i isNot
          cases children with
          | nil => exact absurd rfl (here.not isNot)
          | cons child rest =>
              rcases Option.isSome_iff_exists.mp (ih child (by simp)) with ⟨text, text_eq⟩
              simp [formatFirst, text_eq]
        · rfl

end DebugFormatter

namespace PayloadFormatter

theorem format_returns {tree : IndicatorsTree} {root : Node} (root_eq : tree.root = some root)
    (safe : root.FormatterSafe) (formatter : PayloadFormatter) :
    (∃ payload, formatter.format tree = .value payload) ∨
      ∃ failure, formatter.format tree = .error failure := by
  simp only [format, root_eq]
  cases formatter with
  | nestedList =>
      rcases Option.isSome_iff_exists.mp (NestedListFormatter.formatNode_isSome safe 1 .no) with
        ⟨lines, lines_eq⟩
      simp [formatRoot, NestedListFormatter.format, lines_eq]
  | compactList => simp [formatRoot, CompactListFormatter.format]
  | json =>
      simp only [formatRoot, JsonFormatter.format]
      cases JsonFormatter.formatNode root <;> simp
  | debug =>
      simp only [formatRoot, DebugFormatter.format]
      cases children_eq : root.children with
      | nil => simp
      | cons child rest =>
          have childSafe := (RoseTree.everywhere_iff.mp safe).2 child (by simp [children_eq])
          rcases Option.isSome_iff_exists.mp (DebugFormatter.formatNode_isSome childSafe) with
            ⟨text, text_eq⟩
          simp [text_eq]
  | lastIncompliance =>
      simp only [formatRoot, LastIncomplianceFormatter.format]
      split <;> simp

end PayloadFormatter

end OsConfig.ComplianceEngine
