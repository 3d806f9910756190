import OsConfig.ComplianceEngine.Formatters
import OsConfig.Common.Parson.RoundTrip
import OsConfig.Common.Parson.Validity

/-!
# What the JSON formatter tells

`JsonFormatter` writes the tree below the root: a child is an object with its
name, its status and the array of its own entries, an indicator an object with
its message and its status. The text determines this array, and the array
determines names, messages, nesting and order. Of the three statuses it names
only two, so what is not compliant cannot be read back.
-/

namespace OsConfig.ComplianceEngine

open Utf8 (IsText)

namespace Status

/-- The status as `JsonFormatter` reports it. -/
def reported : Status → Status
  | .compliant => .compliant
  | _ => .nonCompliant

/-- The exchange of the two statuses that are reported alike. -/
def exchanged : Status → Status
  | .compliant => .compliant
  | .nonCompliant => .notApplicable
  | .notApplicable => .nonCompliant

theorem reported_exchanged (status : Status) : status.exchanged.reported = status.reported := by
  cases status <;> rfl

theorem exchanged_eq_self_iff (status : Status) : status.exchanged = status ↔ status = .compliant := by
  cases status <;> decide

theorem eq_of_reported {status other : Status} (isCompliant : status = .compliant)
    (same : other.reported = status.reported) : other = status := by
  subst isCompliant
  cases other <;> simp_all [reported]

theorem statusText_eq_iff (left right : Status) :
    JsonFormatter.statusText left = JsonFormatter.statusText right ↔
      left.reported = right.reported := by
  have different : bytes "Compliant" ≠ bytes "NonCompliant" := by decide
  cases left <;> cases right <;>
    simp [JsonFormatter.statusText, reported, different, different.symm]

end Status

/-- Lists with equal images under one function have equal images under another one that the
first determines. -/
theorem map_eq_map_of_determined {α β γ : Type} {first : α → β} {second : α → γ}
    {left right : List α}
    (determines : ∀ item ∈ left, ∀ other, first item = first other → second item = second other)
    (same : left.map first = right.map first) : left.map second = right.map second := by
  induction left generalizing right with
  | nil =>
      cases right with
      | nil => rfl
      | cons other others => simp at same
  | cons item items ih =>
      cases right with
      | nil => simp at same
      | cons other others =>
          simp only [List.map_cons, List.cons.injEq] at same ⊢
          exact ⟨determines item (by simp) other same.1,
            ih (fun item mem => determines item (List.mem_cons_of_mem _ mem)) same.2⟩

namespace Indicator

def mapStatus (f : Status → Status) (indicator : Indicator) : Indicator :=
  { indicator with status := f indicator.status }

theorem eq_of_reported {indicator other : Indicator} (isCompliant : indicator.status = .compliant)
    (same : indicator.mapStatus Status.reported = other.mapStatus Status.reported) :
    indicator = other := by
  rcases indicator with ⟨message, status⟩
  rcases other with ⟨otherMessage, otherStatus⟩
  have message_eq := congrArg Indicator.message same
  have status_eq := Status.eq_of_reported isCompliant (congrArg Indicator.status same).symm
  simp_all [mapStatus]

end Indicator

namespace Node

/-- The tree with all its statuses changed. -/
def mapStatus (f : Status → Status) (node : Node) : Node :=
  node.map fun data =>
    { data with status := f data.status, indicators := data.indicators.map (Indicator.mapStatus f) }

/-- Every status of the node is compliant. -/
structure Compliant (node : Node) : Prop where
  status : node.status = .compliant
  indicators : ∀ indicator ∈ node.indicators, indicator.status = .compliant

/-- The name of the node and its messages are texts. -/
structure Textual (node : Node) : Prop where
  procedureName : IsText node.procedureName
  messages : ∀ indicator ∈ node.indicators, IsText indicator.message

section MapStatus

variable (f : Status → Status) (node : Node)

theorem mapStatus_mk (data : NodeData) (children : List Node) :
    mapStatus f ⟨data, children⟩ =
      ⟨{ data with status := f data.status
                   indicators := data.indicators.map (Indicator.mapStatus f) },
        children.map (mapStatus f)⟩ :=
  RoseTree.map_mk _ _ _

theorem children_mapStatus : (node.mapStatus f).children = node.children.map (mapStatus f) :=
  RoseTree.map_children _ node

theorem indicators_mapStatus :
    (node.mapStatus f).indicators = node.indicators.map (Indicator.mapStatus f) := by
  rcases node with ⟨data, children⟩
  rw [mapStatus_mk]
  rfl

theorem mapStatus_mapStatus (g : Status → Status) :
    (node.mapStatus f).mapStatus g = node.mapStatus (g ∘ f) := by
  rw [mapStatus, mapStatus, RoseTree.map_map, mapStatus]
  congr 1
  funext data
  simp [Indicator.mapStatus, Function.comp_def]

theorem textual_mapStatus_iff :
    (node.mapStatus f).Everywhere Textual ↔ node.Everywhere Textual := by
  rw [mapStatus, RoseTree.everywhere_map_iff]
  constructor
  · refine RoseTree.Everywhere.mono fun tree textual => ?_
    refine ⟨by simpa [procedureName] using textual.procedureName, ?_⟩
    simpa [indicators, Indicator.mapStatus] using textual.messages
  · refine RoseTree.Everywhere.mono fun tree textual => ?_
    refine ⟨by simpa [procedureName] using textual.procedureName, ?_⟩
    simpa [indicators, Indicator.mapStatus] using textual.messages

end MapStatus

/-- A tree that an exchange of its statuses leaves as it is has only compliant ones. -/
theorem compliant_of_exchanged {node : Node} (same : node.mapStatus Status.exchanged = node) :
    node.Everywhere Compliant := by
  induction node using RoseTree.childInduction with
  | step data children ih =>
      rw [mapStatus_mk] at same
      injection same with data_eq children_eq
      have indicators_eq := congrArg NodeData.indicators data_eq
      refine ⟨⟨?_, fun indicator mem => ?_⟩, fun child mem => ?_⟩
      · exact (Status.exchanged_eq_self_iff _).mp (congrArg NodeData.status data_eq)
      · have kept := List.map_inj_left.mp (indicators_eq.trans (List.map_id _).symm) indicator mem
        exact (Status.exchanged_eq_self_iff _).mp (congrArg Indicator.status kept)
      · exact ih child mem (List.map_inj_left.mp (children_eq.trans (List.map_id _).symm) child mem)

theorem eq_of_reported {node other : Node} (compliant : node.Everywhere Compliant)
    (same : node.mapStatus Status.reported = other.mapStatus Status.reported) : node = other := by
  induction node using RoseTree.childInduction generalizing other with
  | step data children ih =>
      rcases other with ⟨otherData, others⟩
      rw [RoseTree.everywhere_iff] at compliant
      rcases compliant with ⟨here, below⟩
      rw [mapStatus_mk, mapStatus_mk] at same
      injection same with data_eq children_eq
      have children_same : children.map id = others.map id :=
        map_eq_map_of_determined (fun child mem other => ih child mem (below child mem)) children_eq
      have indicators_same : data.indicators.map id = otherData.indicators.map id := by
        exact map_eq_map_of_determined
          (fun indicator mem _ => Indicator.eq_of_reported (here.indicators indicator mem))
          (congrArg NodeData.indicators data_eq)
      have status_same : otherData.status = data.status :=
        Status.eq_of_reported here.status (congrArg NodeData.status data_eq).symm
      have name_same : data.procedureName = otherData.procedureName := by
        simpa using congrArg NodeData.procedureName data_eq
      rw [List.map_id, List.map_id] at children_same indicators_same
      rcases data with ⟨name, status, indicators⟩
      rcases otherData with ⟨otherName, otherStatus, otherIndicators⟩
      simp_all

end Node

namespace JsonFormatter

/-- The entry of an indicator with a textual message. -/
def indicatorEntry (indicator : Indicator) : JsonValue :=
  .object [(bytes "message", .string indicator.message),
    (bytes "status", .string (statusText indicator.status))]

mutual

/-- The entry of a child with textual names and messages. -/
def nodeEntry (node : Node) : JsonValue :=
  match node with
  | ⟨data, children⟩ =>
      .object [(bytes "procedure", .string data.procedureName),
        (bytes "status", .string (statusText data.status)),
        (bytes "indicators",
          .array (nodeEntries children ++ data.indicators.map indicatorEntry))]
termination_by structural node

def nodeEntries (children : List Node) : List JsonValue :=
  match children with
  | [] => []
  | child :: rest => nodeEntry child :: nodeEntries rest
termination_by structural children

end

/-- The array for the tree below a root. -/
def entries (children : List Node) (indicators : List Indicator) : List JsonValue :=
  children.map nodeEntry ++ indicators.map indicatorEntry

theorem nodeEntries_eq_map (children : List Node) : nodeEntries children = children.map nodeEntry := by
  induction children with
  | nil => rfl
  | cons child rest ih => simp [nodeEntries, ih]

theorem nodeEntry_mk (data : NodeData) (children : List Node) :
    nodeEntry ⟨data, children⟩ =
      .object [(bytes "procedure", .string data.procedureName),
        (bytes "status", .string (statusText data.status)),
        (bytes "indicators", .array (entries children data.indicators))] := by
  rw [nodeEntry, nodeEntries_eq_map, entries]

section Determined

/-- An entry with three members is that of a child. -/
def isNodeEntry : JsonValue → Bool
  | .object [_, _, _] => true
  | _ => false

theorem isNodeEntry_nodeEntry (node : Node) : isNodeEntry (nodeEntry node) = true := by
  rcases node with ⟨data, children⟩
  rw [nodeEntry_mk]
  rfl

/-- The two kinds of entries are told apart. -/
theorem entries_eq_iff {children others : List Node} {indicators otherIndicators : List Indicator} :
    entries children indicators = entries others otherIndicators ↔
      children.map nodeEntry = others.map nodeEntry ∧
        indicators.map indicatorEntry = otherIndicators.map indicatorEntry := by
  have nodes : ∀ (children : List Node) (indicators : List Indicator),
      (entries children indicators).filter isNodeEntry = children.map nodeEntry := by
    intro children indicators
    rw [entries, List.filter_append, List.filter_eq_self.mpr, List.filter_eq_nil_iff.mpr,
      List.append_nil]
    · intro entry mem
      rcases List.mem_map.mp mem with ⟨indicator, -, rfl⟩
      simp [indicatorEntry, isNodeEntry]
    · intro entry mem
      rcases List.mem_map.mp mem with ⟨node, -, rfl⟩
      exact isNodeEntry_nodeEntry node
  constructor
  · intro same
    have nodes_same : children.map nodeEntry = others.map nodeEntry := by
      rw [← nodes children indicators, same, nodes]
    rw [entries, entries, nodes_same] at same
    exact ⟨nodes_same, List.append_cancel_left same⟩
  · rintro ⟨nodes_same, indicators_same⟩
    rw [entries, entries, nodes_same, indicators_same]

theorem indicatorEntry_eq_iff (left right : Indicator) :
    indicatorEntry left = indicatorEntry right ↔
      left.mapStatus Status.reported = right.mapStatus Status.reported := by
  simp [indicatorEntry, Indicator.mapStatus, Status.statusText_eq_iff]

/-- Entries are equal exactly if the subtrees are reported alike. -/
theorem nodeEntry_eq_iff (left right : Node) :
    nodeEntry left = nodeEntry right ↔
      left.mapStatus Status.reported = right.mapStatus Status.reported := by
  induction left using RoseTree.childInduction generalizing right with
  | step data children ih =>
      rcases right with ⟨otherData, others⟩
      have children_iff : children.map nodeEntry = others.map nodeEntry ↔
          children.map (Node.mapStatus Status.reported) =
            others.map (Node.mapStatus Status.reported) := by
        constructor
        · exact map_eq_map_of_determined fun child mem other => (ih child mem other).mp
        · exact map_eq_map_of_determined fun child mem other => (ih child mem other).mpr
      have indicators_iff : data.indicators.map indicatorEntry =
          otherData.indicators.map indicatorEntry ↔
            data.indicators.map (Indicator.mapStatus Status.reported) =
              otherData.indicators.map (Indicator.mapStatus Status.reported) := by
        constructor
        · exact map_eq_map_of_determined fun indicator _ other => (indicatorEntry_eq_iff _ other).mp
        · exact map_eq_map_of_determined fun indicator _ other => (indicatorEntry_eq_iff _ other).mpr
      rw [nodeEntry_mk, nodeEntry_mk, Node.mapStatus_mk, Node.mapStatus_mk]
      simp only [JsonValue.object.injEq, List.cons.injEq, Prod.mk.injEq, true_and, and_true,
        JsonValue.string.injEq, JsonValue.array.injEq, entries_eq_iff, children_iff,
        indicators_iff, Status.statusText_eq_iff, RoseTree.mk.injEq, NodeData.mk.injEq]
      tauto

end Determined

section Written

theorem setString_text {text : ByteString} (isText : IsText text) :
    setString text = .ok (.string text) := by
  simp [setString, JsonValue.initString, ByteString.cString_of_not_mem isText.2, isText.1]

theorem setString_statusText (status : Status) :
    setString (statusText status) = .ok (.string (statusText status)) := by
  refine setString_text ?_
  cases status
  · exact ⟨by decide, by decide⟩
  · exact ⟨by decide, by decide⟩
  · exact ⟨by decide, by decide⟩

theorem mapM_indicatorValue {indicators : List Indicator}
    (textual : ∀ indicator ∈ indicators, IsText indicator.message) :
    indicators.mapM indicatorValue = .ok (indicators.map indicatorEntry) := by
  induction indicators with
  | nil => rfl
  | cons indicator rest ih =>
      have later := ih fun other mem => textual other (List.mem_cons_of_mem _ mem)
      have here : indicatorValue indicator = .ok (indicatorEntry indicator) := by
        rw [indicatorValue, setString_text (textual indicator (by simp)), setString_statusText]
        rfl
      rw [List.mapM_cons, here, later]
      rfl

theorem formatChildren_entries {children : List Node}
    (named : ∀ child ∈ children, IsText child.procedureName)
    (formatted : ∀ child ∈ children,
      formatNode child = .ok (entries child.children child.indicators)) :
    formatChildren children = .ok (children.map nodeEntry) := by
  induction children with
  | nil => rfl
  | cons child rest ih =>
      have later := ih (fun other mem => named other (List.mem_cons_of_mem _ mem))
        (fun other mem => formatted other (List.mem_cons_of_mem _ mem))
      rw [formatChildren, setString_text (named child (by simp)), setString_statusText,
        formatted child (by simp), later]
      rcases child with ⟨data, children⟩
      rw [List.map_cons, nodeEntry_mk]
      rfl

theorem formatNode_entries {node : Node} (textual : node.Everywhere Node.Textual) :
    formatNode node = .ok (entries node.children node.indicators) := by
  induction textual with
  | @intro node here below ih =>
      rcases node with ⟨data, children⟩
      have named : ∀ child ∈ children, IsText (Node.procedureName child) := by
        intro child mem
        exact (RoseTree.everywhere_iff.mp (below child mem)).1.procedureName
      have messages := mapM_indicatorValue here.messages
      change data.indicators.mapM indicatorValue = _ at messages
      rw [formatNode, formatChildren_entries named ih, messages]
      rfl

theorem format_textual {root : Node} (textual : root.Everywhere Node.Textual) :
    format root = .value
      (JsonValue.array (entries root.children root.indicators)).serializeToStringPretty := by
  rw [format, formatNode_entries textual]

theorem exists_levels {values : List JsonValue}
    (readable : ∀ value ∈ values, ∃ levels, JsonValue.Readable levels value) :
    ∃ levels, ∀ value ∈ values, JsonValue.Readable levels value := by
  induction values with
  | nil => exact ⟨0, by simp⟩
  | cons value rest ih =>
      rcases readable value (by simp) with ⟨here, valueReadable⟩
      rcases ih fun other mem => readable other (List.mem_cons_of_mem _ mem) with ⟨below, others⟩
      refine ⟨max here below, fun other mem => ?_⟩
      rcases List.mem_cons.mp mem with rfl | mem
      · exact valueReadable.mono (le_max_left _ _)
      · exact (others other mem).mono (le_max_right _ _)

theorem readable_entries {children : List Node} (indicators : List Indicator)
    (readable : ∀ child ∈ children, ∃ levels, JsonValue.Readable levels (nodeEntry child)) :
    ∃ levels, JsonValue.Readable levels (.array (entries children indicators)) := by
  have each : ∀ entry ∈ entries children indicators, ∃ levels, JsonValue.Readable levels entry := by
    intro entry mem
    rcases List.mem_append.mp mem with mem | mem
    · rcases List.mem_map.mp mem with ⟨child, child_mem, rfl⟩
      exact readable child child_mem
    · rcases List.mem_map.mp mem with ⟨indicator, -, rfl⟩
      have distinct : [bytes "message", bytes "status"].Nodup := by decide
      refine ⟨2, .object distinct ?_ ?_⟩
      · simp only [List.forall_mem_cons]
        exact ⟨by decide, by decide, by simp⟩
      · simp only [List.forall_mem_cons]
        exact ⟨.string 0 _, .string 0 _, by simp⟩
  rcases exists_levels each with ⟨levels, readable⟩
  exact ⟨levels + 1, .array readable⟩

theorem readable_nodeEntry (node : Node) : ∃ levels, JsonValue.Readable levels (nodeEntry node) := by
  induction node using RoseTree.childInduction with
  | step data children ih =>
      rcases readable_entries data.indicators ih with ⟨levels, readable⟩
      have distinct : [bytes "procedure", bytes "status", bytes "indicators"].Nodup := by
        decide
      rw [nodeEntry_mk]
      refine ⟨levels + 2, .object distinct ?_ ?_⟩
      · simp only [List.forall_mem_cons]
        exact ⟨by decide, by decide, by decide, by simp⟩
      · simp only [List.forall_mem_cons]
        exact ⟨.string levels _, .string levels _, readable.mono (by omega), by simp⟩

/-- The text determines the array. -/
theorem format_eq_iff {root other : Node} (textual : root.Everywhere Node.Textual)
    (otherTextual : other.Everywhere Node.Textual) :
    format other = format root ↔
      entries other.children other.indicators = entries root.children root.indicators := by
  rw [format_textual textual, format_textual otherTextual]
  constructor
  · intro same
    simp only [Outcome.value.injEq] at same
    rcases readable_entries other.indicators fun child _ => readable_nodeEntry child with
      ⟨otherLevels, otherReadable⟩
    rcases readable_entries root.indicators fun child _ => readable_nodeEntry child with
      ⟨levels, readable⟩
    have equal := JsonValue.serialize_injective (otherReadable.mono (le_max_left _ levels))
      (readable.mono (le_max_right otherLevels _)) same
    simpa using equal
  · intro same
    rw [same]

end Written

/-- No other textual tree has the same output and differs below the root. -/
def Determined (root : Node) : Prop :=
  ∀ other : Node, other.Everywhere Node.Textual → format other = format root →
    other.children = root.children ∧ other.indicators = root.indicators

/-- The trees below two roots are reported alike. -/
def ReportedAlike (left right : Node) : Prop :=
  left.children.map (Node.mapStatus Status.reported) =
      right.children.map (Node.mapStatus Status.reported) ∧
    left.indicators.map (Indicator.mapStatus Status.reported) =
      right.indicators.map (Indicator.mapStatus Status.reported)

/-- Everything but the difference between the two statuses that are reported alike can be
read back. -/
theorem format_eq_iff_reportedAlike {root other : Node} (textual : root.Everywhere Node.Textual)
    (otherTextual : other.Everywhere Node.Textual) :
    format other = format root ↔ ReportedAlike other root := by
  rw [format_eq_iff textual otherTextual, entries_eq_iff, ReportedAlike]
  refine and_congr ⟨?_, ?_⟩ ⟨?_, ?_⟩
  · exact map_eq_map_of_determined fun child _ other => (nodeEntry_eq_iff child other).mp
  · exact map_eq_map_of_determined fun child _ other => (nodeEntry_eq_iff child other).mpr
  · exact map_eq_map_of_determined fun indicator _ other => (indicatorEntry_eq_iff _ other).mp
  · exact map_eq_map_of_determined fun indicator _ other => (indicatorEntry_eq_iff _ other).mpr

theorem reportedAlike_exchanged (root : Node) :
    ReportedAlike (root.mapStatus Status.exchanged) root := by
  have composed : Status.reported ∘ Status.exchanged = Status.reported :=
    funext Status.reported_exchanged
  rw [ReportedAlike, Node.children_mapStatus, Node.indicators_mapStatus, List.map_map, List.map_map]
  refine ⟨List.map_congr_left fun child _ => ?_, List.map_congr_left fun indicator _ => ?_⟩
  · rw [Function.comp_apply, Node.mapStatus_mapStatus, composed]
  · simp [Indicator.mapStatus, Status.reported_exchanged]

/-- The output determines the tree below the root exactly if every status there is compliant;
and it always determines that tree up to the difference between the other two statuses. -/
theorem determined_iff {root : Node} (textual : root.Everywhere Node.Textual) :
    (Determined root ↔
      (∀ child ∈ root.children, child.Everywhere Node.Compliant) ∧
        ∀ indicator ∈ root.indicators, indicator.status = .compliant) ∧
    ∀ other : Node, other.Everywhere Node.Textual →
      (format other = format root ↔ ReportedAlike other root) := by
  refine ⟨⟨fun determined => ?_, ?_⟩,
    fun other otherTextual => format_eq_iff_reportedAlike textual otherTextual⟩
  · have exchangedTextual := (Node.textual_mapStatus_iff Status.exchanged root).mpr textual
    have same := (format_eq_iff_reportedAlike textual exchangedTextual).mpr
      (reportedAlike_exchanged root)
    rcases determined _ exchangedTextual same with ⟨children_eq, indicators_eq⟩
    rw [Node.children_mapStatus] at children_eq
    rw [Node.indicators_mapStatus] at indicators_eq
    refine ⟨fun child mem => ?_, fun indicator mem => ?_⟩
    · exact Node.compliant_of_exchanged
        (List.map_inj_left.mp (children_eq.trans (List.map_id _).symm) child mem)
    · have kept := List.map_inj_left.mp (indicators_eq.trans (List.map_id _).symm) indicator mem
      exact (Status.exchanged_eq_self_iff _).mp (congrArg Indicator.status kept)
  · rintro ⟨childrenCompliant, indicatorsCompliant⟩ other otherTextual same
    rcases (format_eq_iff_reportedAlike textual otherTextual).mp same with
      ⟨children_same, indicators_same⟩
    have children_eq : root.children.map id = other.children.map id :=
      map_eq_map_of_determined
        (fun child mem _ => Node.eq_of_reported (childrenCompliant child mem)) children_same.symm
    have indicators_eq : root.indicators.map id = other.indicators.map id := by
      exact map_eq_map_of_determined
        (fun indicator mem _ => Indicator.eq_of_reported (indicatorsCompliant indicator mem))
        indicators_same.symm
    rw [List.map_id, List.map_id] at children_eq indicators_eq
    exact ⟨children_eq.symm, indicators_eq.symm⟩

/-- A rule whose only procedure ends with the given status. -/
def audited (status : Status) : Node :=
  ⟨{ procedureName := bytes "rule", status },
    [⟨{ procedureName := bytes "EnsureSysctl", status
        indicators := [{ message := bytes "kernel.dmesg_restrict", status }] }, []⟩]⟩

theorem textual_audited (status : Status) : (audited status).Everywhere Node.Textual := by
  have names : IsText (bytes "rule") ∧ IsText (bytes "EnsureSysctl") ∧
      IsText (bytes "kernel.dmesg_restrict") := by
    decide
  rcases names with ⟨rule, procedure, message⟩
  refine ⟨⟨rule, by simp [audited, Node.indicators]⟩, fun child mem => ?_⟩
  rw [audited, List.mem_singleton] at mem
  subst mem
  refine ⟨⟨procedure, ?_⟩, by simp⟩
  simpa [Node.indicators] using message

theorem audited_compliant_determined : Determined (audited .compliant) := by
  refine (determined_iff (textual_audited .compliant)).1.mpr ⟨fun child mem => ?_, ?_⟩
  · rw [audited, List.mem_singleton] at mem
    subst mem
    exact ⟨⟨rfl, by simp [Node.indicators]⟩, by simp⟩
  · simp [audited, Node.indicators]

/-- A procedure that does not apply is reported like one that fails. -/
theorem audited_notApplicable_undetermined :
    (audited .notApplicable).Everywhere Node.Textual ∧ ¬Determined (audited .notApplicable) := by
  refine ⟨textual_audited _, fun determined => ?_⟩
  have same : format (audited .nonCompliant) = format (audited .notApplicable) := by
    rw [format_textual (textual_audited _), format_textual (textual_audited _)]
    rfl
  have children_eq := (determined _ (textual_audited .nonCompliant) same).1
  simp [audited] at children_eq

end JsonFormatter

end OsConfig.ComplianceEngine
