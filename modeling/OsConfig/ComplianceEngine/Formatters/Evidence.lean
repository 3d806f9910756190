import OsConfig.ComplianceEngine.Formatters

/-!
# What the nested list leaves out

At every node the nested list is to leave out compliant entries beyond the
first few and nothing else. The formatter counts the compliant entries, and
once the count is beyond the limit it skips every entry, whatever its status.
So it gives the list it is to give exactly if, at every node that is shown,
only compliant entries come behind the first skipped one.
-/

namespace OsConfig.ComplianceEngine.NestedListFormatter

/-- An entry that is to be left out: compliant, beyond the first few. -/
def IsSurplus (shown : ℕ) (status : Status) : Prop :=
  status = .compliant ∧ maxNodeCompliantIndicators < countCompliant shown status

instance (shown : ℕ) (status : Status) : Decidable (IsSurplus shown status) :=
  inferInstanceAs (Decidable (_ ∧ _))

/-- The lines of the indicators of a node without the surplus. -/
def listIndicators (depth : ℕ) (ignored : Ignored) (shown : ℕ) : List Indicator → ByteString
  | [] => []
  | indicator :: rest =>
      (if IsSurplus shown indicator.status then []
        else line depth indicator.status ignored indicator.message) ++
        listIndicators depth ignored (countCompliant shown indicator.status) rest

mutual

/-- The lines below a node without the surplus of any node. -/
def listNode (depth : ℕ) (ignored : Ignored) (node : Node) : ByteString :=
  match node with
  | ⟨data, children⟩ =>
      listChildren data.procedureName depth ignored 0 children ++
        listIndicators depth ignored 0 data.indicators
termination_by structural node

def listChildren (parent : ByteString) (depth : ℕ) (ignored : Ignored) (shown : ℕ)
    (children : List Node) : ByteString :=
  match children with
  | [] => []
  | child :: rest =>
      (if IsSurplus shown (Node.status child) then []
        else
          line depth (Node.status child)
              (childIgnored parent rest.isEmpty (Node.status child) ignored)
              (Node.procedureName child) ++
            listNode (depth + 1) (childIgnored parent rest.isEmpty (Node.status child) ignored)
              child) ++
        listChildren parent depth ignored (countCompliant shown (Node.status child)) rest
termination_by structural children

end

/-- The list with all the evidence and without the surplus. -/
def listing (root : Node) : ByteString :=
  line 0 root.status .no root.procedureName ++ listNode 1 .no root

/-- Behind more compliant entries than may be shown, all entries are compliant. -/
def OnlyCompliantBehind (shown : ℕ) (statuses : List Status) : Prop :=
  ∀ front rest, statuses = front ++ rest →
    maxNodeCompliantIndicators < shown + front.count .compliant →
      ∀ status ∈ rest, status = .compliant

mutual

/-- At this node and at the nodes shown below it nothing but compliant entries is skipped, and
no assertion fails. -/
def KeepsEvidence (node : Node) : Prop :=
  match node with
  | ⟨data, children⟩ =>
      OnlyCompliantBehind 0 (data.indicators.map (·.status)) ∧
        OnlyCompliantBehind 0 (children.map Node.status) ∧
        ChildrenKeepEvidence data.procedureName 0 children
termination_by structural node

/-- The shown ones of the children keep their evidence, and an alternative with others behind it
is not compliant. -/
def ChildrenKeepEvidence (parent : ByteString) (shown : ℕ) (children : List Node) : Prop :=
  match children with
  | [] => True
  | child :: rest =>
      (countCompliant shown (Node.status child) ≤ maxNodeCompliantIndicators →
        ¬ (rest ≠ [] ∧ parent = anyOfName ∧ Node.status child = .compliant) ∧
          KeepsEvidence child) ∧
        ChildrenKeepEvidence parent (countCompliant shown (Node.status child)) rest
termination_by structural children

end

section Counting

theorem le_countCompliant (shown : ℕ) (status : Status) : shown ≤ countCompliant shown status := by
  rw [countCompliant]
  split <;> omega

/-- Within the limit, an entry is surplus exactly if it is the first one beyond it. -/
theorem isSurplus_iff {shown : ℕ} (within : shown ≤ maxNodeCompliantIndicators)
    (status : Status) :
    IsSurplus shown status ↔ maxNodeCompliantIndicators < countCompliant shown status := by
  constructor
  · exact fun surplus => surplus.2
  · intro beyond
    refine ⟨?_, beyond⟩
    by_contra other
    rw [countCompliant, if_neg other] at beyond
    omega

theorem isSurplus_beyond {shown : ℕ} (beyond : maxNodeCompliantIndicators < shown)
    (status : Status) : IsSurplus shown status ↔ status = .compliant := by
  constructor
  · exact fun surplus => surplus.1
  · intro compliant
    exact ⟨compliant, beyond.trans_le (le_countCompliant shown status)⟩

theorem onlyCompliantBehind_cons {shown : ℕ} {status : Status} {rest : List Status}
    (within : shown ≤ maxNodeCompliantIndicators) :
    OnlyCompliantBehind shown (status :: rest) ↔
      OnlyCompliantBehind (countCompliant shown status) rest := by
  have count_eq : ∀ front : List Status, shown + (status :: front).count .compliant =
      countCompliant shown status + front.count .compliant := by
    intro front
    rw [List.count_cons, countCompliant]
    by_cases compliant : status = .compliant
    · simp [compliant]
      omega
    · simp [compliant]
  constructor
  · intro only front rest' rest_eq many
    apply only (status :: front) rest' (by rw [rest_eq, List.cons_append])
    rw [count_eq]
    exact many
  · intro only front rest' parts many
    cases front with
    | nil =>
        rw [List.count_nil] at many
        omega
    | cons first front =>
        rw [List.cons_append, List.cons.injEq] at parts
        rcases parts with ⟨rfl, parts⟩
        rw [count_eq] at many
        exact only front rest' parts many

theorem onlyCompliantBehind_beyond {shown : ℕ} (beyond : maxNodeCompliantIndicators < shown)
    (statuses : List Status) :
    OnlyCompliantBehind shown statuses ↔ ∀ status ∈ statuses, status = .compliant := by
  constructor
  · intro only
    exact only [] statuses rfl (by omega)
  · intro all front rest parts _ status mem
    exact all status (by simp [parts, mem])

theorem line_ne_nil (depth : ℕ) (status : Status) (ignored : Ignored) (text : ByteString) :
    0 < (line depth status ignored text).length := by
  simp only [line, List.length_append, show (bytes "\n").length = 1 from rfl]
  omega

end Counting

section Indicators

theorem formatIndicators_beyond (depth : ℕ) (ignored : Ignored) {shown : ℕ}
    (beyond : maxNodeCompliantIndicators < shown) (indicators : List Indicator) :
    formatIndicators depth ignored shown indicators = [] := by
  induction indicators generalizing shown with
  | nil => rfl
  | cons indicator rest ih =>
      have still := beyond.trans_le (le_countCompliant shown indicator.status)
      rw [formatIndicators, if_pos still, ih still]

theorem listIndicators_beyond (depth : ℕ) (ignored : Ignored) {shown : ℕ}
    (beyond : maxNodeCompliantIndicators < shown) (indicators : List Indicator) :
    listIndicators depth ignored shown indicators = [] ↔
      ∀ status ∈ indicators.map (·.status), status = .compliant := by
  induction indicators generalizing shown with
  | nil => simp [listIndicators]
  | cons indicator rest ih =>
      have still := beyond.trans_le (le_countCompliant shown indicator.status)
      rw [listIndicators, List.append_eq_nil_iff, ih still, List.map_cons, List.forall_mem_cons]
      refine and_congr_left fun _ => ?_
      rw [← isSurplus_beyond beyond]
      split
      next surplus => simp [surplus]
      next needed =>
        have nonempty := line_ne_nil depth indicator.status ignored indicator.message
        simp only [needed, iff_false]
        exact List.ne_nil_of_length_pos nonempty

/-- The formatter shows at most the lines that are to be shown, and all of them exactly if only
compliant indicators come behind the limit. -/
theorem formatIndicators_spec (depth : ℕ) (ignored : Ignored) {shown : ℕ}
    (within : shown ≤ maxNodeCompliantIndicators) (indicators : List Indicator) :
    (formatIndicators depth ignored shown indicators).length ≤
        (listIndicators depth ignored shown indicators).length ∧
      ((formatIndicators depth ignored shown indicators).length =
          (listIndicators depth ignored shown indicators).length →
        OnlyCompliantBehind shown (indicators.map (·.status))) ∧
      (OnlyCompliantBehind shown (indicators.map (·.status)) →
        formatIndicators depth ignored shown indicators =
          listIndicators depth ignored shown indicators) := by
  induction indicators generalizing shown with
  | nil =>
      refine ⟨le_rfl, fun _ => ?_, fun _ => rfl⟩
      rintro front rest parts _ status mem
      rw [List.map_nil, List.nil_eq, List.append_eq_nil_iff] at parts
      rw [parts.2] at mem
      cases mem
  | cons indicator rest ih =>
      rw [List.map_cons, onlyCompliantBehind_cons within, formatIndicators, listIndicators]
      by_cases beyond : maxNodeCompliantIndicators < countCompliant shown indicator.status
      · have surplus := (isSurplus_iff within indicator.status).mpr beyond
        rw [if_pos beyond, if_pos surplus, formatIndicators_beyond depth ignored beyond,
          onlyCompliantBehind_beyond beyond, ← listIndicators_beyond depth ignored beyond,
          List.nil_append]
        refine ⟨Nat.zero_le _, fun same => ?_, fun empty => empty.symm⟩
        exact List.length_eq_zero_iff.mp same.symm
      · have needed := (isSurplus_iff within indicator.status).not.mpr beyond
        rcases ih (not_lt.mp beyond) with ⟨le, only, same⟩
        rw [if_neg beyond, if_neg needed, List.length_append, List.length_append]
        refine ⟨by omega, fun equal => only (by omega), fun kept => ?_⟩
        rw [same kept]

end Indicators

section Nodes

theorem formatChildren_beyond (parent : ByteString) (depth : ℕ) (ignored : Ignored) {shown : ℕ}
    (beyond : maxNodeCompliantIndicators < shown) (children : List Node) :
    formatChildren parent depth ignored shown children = some [] := by
  induction children generalizing shown with
  | nil => rfl
  | cons child rest ih =>
      have still := beyond.trans_le (le_countCompliant shown (Node.status child))
      rw [formatChildren, if_pos still, ih still]

theorem listChildren_beyond (parent : ByteString) (depth : ℕ) (ignored : Ignored) {shown : ℕ}
    (beyond : maxNodeCompliantIndicators < shown) (children : List Node) :
    listChildren parent depth ignored shown children = [] ↔
      ∀ status ∈ children.map Node.status, status = .compliant := by
  induction children generalizing shown with
  | nil => simp [listChildren]
  | cons child rest ih =>
      have still := beyond.trans_le (le_countCompliant shown (Node.status child))
      rw [listChildren, List.append_eq_nil_iff, ih still, List.map_cons, List.forall_mem_cons]
      refine and_congr_left fun _ => ?_
      rw [← isSurplus_beyond beyond]
      split
      next surplus => simp [surplus]
      next needed =>
        have nonempty := line_ne_nil depth (Node.status child)
          (childIgnored parent rest.isEmpty (Node.status child) ignored) (Node.procedureName child)
        simp only [needed, iff_false, List.append_eq_nil_iff, not_and]
        exact fun empty => absurd empty (List.ne_nil_of_length_pos nonempty)

theorem childrenKeepEvidence_beyond (parent : ByteString) {shown : ℕ}
    (beyond : maxNodeCompliantIndicators < shown) (children : List Node) :
    ChildrenKeepEvidence parent shown children := by
  induction children generalizing shown with
  | nil => trivial
  | cons child rest ih =>
      have still := beyond.trans_le (le_countCompliant shown (Node.status child))
      rw [ChildrenKeepEvidence]
      exact ⟨fun within => absurd still (not_lt.mpr within), ih still⟩

/-- What is shown is no longer than what is to be shown, it is as long only under the condition,
and under the condition it is the same. -/
def Shows (shown : Option ByteString) (wanted : ByteString) (condition : Prop) : Prop :=
  (∀ lines, shown = some lines →
      lines.length ≤ wanted.length ∧ (lines.length = wanted.length → condition)) ∧
    (condition → shown = some wanted)

theorem formatChildren_shows {parent : ByteString} {depth : ℕ} {ignored : Ignored} {shown : ℕ}
    (within : shown ≤ maxNodeCompliantIndicators) {children : List Node}
    (below : ∀ child ∈ children, ∀ depth ignored,
      Shows (formatNode depth ignored child) (listNode depth ignored child) (KeepsEvidence child)) :
    Shows (formatChildren parent depth ignored shown children)
      (listChildren parent depth ignored shown children)
      (OnlyCompliantBehind shown (children.map Node.status) ∧
        ChildrenKeepEvidence parent shown children) := by
  induction children generalizing shown with
  | nil =>
      refine ⟨?_, fun _ => rfl⟩
      rintro lines shown_eq
      rw [formatChildren, Option.some.injEq] at shown_eq
      subst shown_eq
      refine ⟨le_rfl, fun _ => ⟨?_, trivial⟩⟩
      rintro front rest parts _ status mem
      rw [List.map_nil, List.nil_eq, List.append_eq_nil_iff] at parts
      rw [parts.2] at mem
      cases mem
  | cons child rest ih =>
      rw [List.map_cons, onlyCompliantBehind_cons within, formatChildren, listChildren,
        ChildrenKeepEvidence]
      by_cases beyond : maxNodeCompliantIndicators < countCompliant shown (Node.status child)
      · have surplus := (isSurplus_iff within (Node.status child)).mpr beyond
        rw [if_pos beyond, if_pos surplus, formatChildren_beyond parent depth ignored beyond,
          onlyCompliantBehind_beyond beyond, ← listChildren_beyond parent depth ignored beyond,
          List.nil_append]
        refine ⟨?_, fun kept => by rw [kept.1]⟩
        rintro lines shown_eq
        rw [Option.some.injEq] at shown_eq
        subst shown_eq
        refine ⟨Nat.zero_le _, fun same => ⟨List.length_eq_zero_iff.mp same.symm, ?_, ?_⟩⟩
        · exact fun within => absurd beyond (not_lt.mpr within)
        · exact childrenKeepEvidence_beyond parent beyond rest
      · have needed := (isSurplus_iff within (Node.status child)).not.mpr beyond
        have still := not_lt.mp beyond
        rcases ih still fun other mem => below other (List.mem_cons_of_mem _ mem) with
          ⟨others_le, others_same⟩
        rcases below child List.mem_cons_self (depth + 1)
          (childIgnored parent rest.isEmpty (Node.status child) ignored) with
          ⟨child_le, child_same⟩
        rw [if_neg beyond, if_neg needed]
        constructor
        · intro lines shown_eq
          split at shown_eq
          · cases shown_eq
          next asserted =>
            simp only [bind, Option.bind_eq_some_iff, pure, Option.some.injEq] at shown_eq
            rcases shown_eq with ⟨child_lines, child_eq, others, others_eq, rfl⟩
            rcases child_le child_lines child_eq with ⟨child_shorter, child_kept⟩
            rcases others_le others others_eq with ⟨others_shorter, others_kept⟩
            simp only [List.length_append] at child_shorter others_shorter ⊢
            refine ⟨by omega, fun same => ?_⟩
            have child_keeps := child_kept (by omega)
            have others_keep := others_kept (by omega)
            exact ⟨others_keep.1, fun _ => ⟨asserted, child_keeps⟩, others_keep.2⟩
        · rintro ⟨only, child_keeps, others_keep⟩
          rcases child_keeps still with ⟨asserted, child_keeps⟩
          rw [if_neg asserted, child_same child_keeps, others_same ⟨only, others_keep⟩]
          rfl

theorem formatNode_shows (node : Node) : ∀ depth ignored,
    Shows (formatNode depth ignored node) (listNode depth ignored node) (KeepsEvidence node) := by
  induction node using RoseTree.childInduction with
  | step data children ih =>
      intro depth ignored
      have children_shows : Shows (formatChildren data.procedureName depth ignored 0 children) _ _ :=
        formatChildren_shows (Nat.zero_le _) ih
      rcases children_shows with ⟨children_le, children_same⟩
      rcases formatIndicators_spec depth ignored (Nat.zero_le _) data.indicators with
        ⟨indicators_le, indicators_kept, indicators_same⟩
      rw [formatNode, listNode, KeepsEvidence]
      constructor
      · intro lines shown_eq
        simp only [bind, Option.bind_eq_some_iff, pure, Option.some.injEq] at shown_eq
        rcases shown_eq with ⟨child_lines, child_eq, rfl⟩
        rcases children_le child_lines child_eq with ⟨children_shorter, children_kept⟩
        simp only [List.length_append]
        refine ⟨by omega, fun same => ⟨indicators_kept (by omega), children_kept (by omega)⟩⟩
      · rintro ⟨indicators, children⟩
        rw [children_same children, indicators_same indicators]
        rfl

/-- The formatter leaves out the surplus of compliant entries and nothing else exactly if only
compliant entries are skipped at every node that it shows. -/
theorem format_eq_listing_iff (root : Node) :
    format root = .value (listing root) ↔ KeepsEvidence root := by
  rcases formatNode_shows root 1 .no with ⟨le, same⟩
  rw [format, listing]
  constructor
  · intro formatted
    cases lines_eq : formatNode 1 .no root with
    | none => simp [lines_eq] at formatted
    | some lines =>
        simp only [lines_eq, Outcome.value.injEq, List.append_cancel_left_eq] at formatted
        exact (le lines lines_eq).2 (by rw [formatted])
  · intro keeps
    rw [same keeps]

/-- A node with six compliant indicators and one that is not. -/
def crowded : Node where
  label :=
    { procedureName := bytes "check"
      indicators := List.replicate 6 { message := bytes "fine", status := .compliant } ++
        [{ message := bytes "bad", status := .nonCompliant }] }
  children := []

set_option maxRecDepth 2000 in
/-- The formatter does not show the indicator that is not compliant. -/
theorem format_crowded :
    ∃ lines, format crowded = .value lines ∧
      line 1 .nonCompliant .no (bytes "bad") <:+: listing crowded ∧
        ¬ line 1 .nonCompliant .no (bytes "bad") <:+: lines := by
  refine ⟨line 0 .nonCompliant .no (bytes "check") ++
    (List.replicate 5 (line 1 .compliant .no (bytes "fine"))).flatten, ?_, ?_, ?_⟩
  · decide
  · decide
  · decide

end Nodes

end OsConfig.ComplianceEngine.NestedListFormatter
