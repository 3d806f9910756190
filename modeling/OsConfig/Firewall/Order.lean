import Mathlib.Logic.Function.Basic
import OsConfig.Firewall
import OsConfig.Library.DesiredEntries

/-!
# The order of the rules

Where the commands do what they are for, a request puts the rules that a chain
lacks in front of it, in their order, and leaves the rules that it has where they
are. The rules of a request stand in their order only if the chain already had
the last ones of them, in their order.
-/

namespace OsConfig.Firewall

open CommandRunner (Json)
open DesiredEntries (put wanted unwanted)

section Meaning

/-- The rules of the chains, without the name of the chain. -/
abbrev Chains := ByteString → List ByteString

def chainNames : List ByteString := [bytes "INPUT", bytes "OUTPUT"]

variable {σ : Type}

/-- The commands do what they are for: test for a rule, insert it at the front, and delete its first
occurrence. -/
structure HasUsualMeaning (host : Host σ) (chains : σ → Chains) : Prop where
  check : ∀ chain ∈ chainNames, ∀ body state,
    ((host.execute (bytes "iptables -C " ++ (chain ++ bytes " " ++ body)) state).1.status = 0 ↔
        body ∈ chains state chain) ∧
      chains (host.execute (bytes "iptables -C " ++ (chain ++ bytes " " ++ body)) state).2 =
        chains state
  insert : ∀ chain ∈ chainNames, ∀ body state,
    (host.execute (bytes "iptables -I " ++ (chain ++ bytes " " ++ body)) state).1.status = 0 ∧
      chains (host.execute (bytes "iptables -I " ++ (chain ++ bytes " " ++ body)) state).2 =
        Function.update (chains state) chain (body :: chains state chain)
  delete : ∀ chain ∈ chainNames, ∀ body state, body ∈ chains state chain →
    (host.execute (bytes "iptables -D " ++ (chain ++ bytes " " ++ body)) state).1.status = 0 ∧
      chains (host.execute (bytes "iptables -D " ++ (chain ++ bytes " " ++ body)) state).2 =
        Function.update (chains state) chain ((chains state chain).erase body)

def settle (rule : IpTablesRule) (chains : Chains) : Chains :=
  Function.update chains (chainName rule.direction)
    (put (rule.body, decide (rule.desiredState = bytes "present"))
      (chains (chainName rule.direction)))

theorem chainName_mem {direction : ByteString} (mem : direction ∈ directions) :
    chainName direction ∈ chainNames := by
  revert direction
  decide

end Meaning

section Steps

variable {σ : Type} {host : Host σ} {chains : σ → Chains} {rule : IpTablesRule} {pass : Pass σ}

theorem ruleExists_eq (usual : HasUsualMeaning host chains) (valid : rule.IsValid) (state : σ) :
    ((ruleExists host rule state).1 = true ↔
        rule.body ∈ chains state (chainName rule.direction)) ∧
      chains (ruleExists host rule state).2 = chains state := by
  have meaning := usual.check _ (chainName_mem valid.direction) rule.body state
  rw [ruleExists, IpTablesRule.specification]
  exact ⟨by rw [decide_eq_true_eq]; exact meaning.1, meaning.2⟩

theorem add_eq (usual : HasUsualMeaning host chains) (valid : rule.IsValid) (error : ByteString)
    (state : σ) :
    ∃ final, add host rule error state = .ok (0, error, final) ∧
      chains final = Function.update (chains state) (chainName rule.direction)
        (rule.body :: chains state (chainName rule.direction)) := by
  have meaning := usual.insert _ (chainName_mem valid.direction) rule.body state
  exact ⟨_, change_of_zero host meaning.1 error, meaning.2⟩

theorem remove_eq (usual : HasUsualMeaning host chains) (valid : rule.IsValid) (error : ByteString)
    (state : σ) (mem : rule.body ∈ chains state (chainName rule.direction)) :
    ∃ final, remove host rule error state = .ok (0, error, final) ∧
      chains final = Function.update (chains state) (chainName rule.direction)
        ((chains state (chainName rule.direction)).erase rule.body) := by
  have meaning := usual.delete _ (chainName_mem valid.direction) rule.body state mem
  exact ⟨_, change_of_zero host meaning.1 error, meaning.2⟩

/-- A command that succeeds adds no error. -/
theorem after_zero (message error : ByteString) (index : ℕ) (state : σ) :
    pass.after message index (0, error, state) = { pass with error := error, state := state } := by
  simp [Pass.after]

theorem removeAll_eq (usual : HasUsualMeaning host chains) (valid : rule.IsValid) (index : ℕ)
    {rounds : ℕ} (enough : (chains pass.state (chainName rule.direction)).count rule.body < rounds) :
    ∃ final, removeAll host rule index rounds pass = .ok { pass with state := final } ∧
      chains final = Function.update (chains pass.state) (chainName rule.direction)
        ((chains pass.state (chainName rule.direction)).filter (· != rule.body)) := by
  induction rounds generalizing pass with
  | zero => exact absurd enough (Nat.not_lt_zero _)
  | succ rounds ih =>
      obtain ⟨found, found_eq⟩ := ruleExists_eq usual valid pass.state
      rw [removeAll]
      by_cases there : rule.body ∈ chains pass.state (chainName rule.direction)
      · obtain ⟨removed, removes, removed_eq⟩ := remove_eq usual valid pass.error
          (ruleExists host rule pass.state).2 (by rwa [found_eq])
        rw [found_eq] at removed_eq
        simp only [found.mpr there, if_true, removes, after_zero]
        have fewer : (chains removed (chainName rule.direction)).count rule.body < rounds := by
          have some_there := List.count_pos_iff.mpr there
          rw [removed_eq, Function.update_self, List.count_erase_self]
          omega
        obtain ⟨final, runs, final_eq⟩ := @ih { pass with state := removed } fewer
        refine ⟨final, runs, ?_⟩
        rw [final_eq]
        dsimp only
        rw [removed_eq, Function.update_self, Function.update_idem]
        exact congrArg _ (DesiredEntries.filter_erase _ _)
      · simp only [mt found.mp there]
        refine ⟨_, rfl, ?_⟩
        have kept : (chains pass.state (chainName rule.direction)).filter (· != rule.body) =
            chains pass.state (chainName rule.direction) := by
          rw [List.filter_eq_self]
          intro body mem
          exact bne_iff_ne.mpr fun same => there (same ▸ mem)
        rw [found_eq, kept, Function.update_eq_self]

theorem setRule_eq (usual : HasUsualMeaning host chains) (valid : rule.IsValid) (index : ℕ)
    {rounds : ℕ} (enough : (chains pass.state (chainName rule.direction)).count rule.body < rounds) :
    ∃ error final, setRule host rounds rule index pass =
        .ok { pass with error := error, state := final } ∧
      chains final = settle rule (chains pass.state) := by
  obtain ⟨found, found_eq⟩ := ruleExists_eq usual valid pass.state
  have error_none : ¬rule.parseError ≠ [] := not_not.mpr valid.noError
  rw [setRule, if_neg error_none, settle]
  by_cases present : rule.desiredState = bytes "present"
  · rw [if_pos present, put, if_pos (decide_eq_true present)]
    dsimp only
    by_cases there : rule.body ∈ chains pass.state (chainName rule.direction)
    · rw [if_pos there, Function.update_eq_self, if_pos (found.mpr there)]
      exact ⟨pass.error, _, rfl, found_eq⟩
    · obtain ⟨added, adds, added_eq⟩ := add_eq usual valid pass.error
        (ruleExists host rule pass.state).2
      rw [if_neg there, if_neg (mt found.mp there), adds]
      refine ⟨pass.error, added, ?_, by rw [added_eq, found_eq]⟩
      dsimp only
      rw [after_zero]
  · have absent : rule.desiredState = bytes "absent" := by
      have either := valid.desiredState
      simpa [desiredStates, present] using either
    obtain ⟨final, removes, final_eq⟩ := removeAll_eq usual valid index enough
    rw [if_neg present, if_pos absent, put, if_neg (by simp [present])]
    exact ⟨pass.error, final, removes, final_eq⟩

theorem length_settle_le (rule : IpTablesRule) (chains : Chains) (chain : ByteString) :
    (settle rule chains chain).length ≤ (chains chain).length + 1 := by
  unfold settle
  by_cases same : chain = chainName rule.direction
  · rw [same, Function.update_self, put]
    split_ifs
    · exact Nat.le_succ _
    · exact le_rfl
    · exact (List.length_filter_le _ _).trans (Nat.le_succ _)
  · rw [Function.update_of_ne same]
    exact Nat.le_succ _

theorem setRulesFrom_eq (usual : HasUsualMeaning host chains) {rules : List IpTablesRule}
    (valid : ∀ rule ∈ rules, rule.IsValid) {rounds : ℕ}
    (enough : ∀ chain ∈ chainNames, (chains pass.state chain).length + rules.length < rounds) :
    ∃ error final, setRulesFrom host rounds rules pass =
        .ok { pass with error := error, state := final } ∧
      chains final = rules.foldl (fun chains rule => settle rule chains) (chains pass.state) := by
  induction rules generalizing pass with
  | nil => exact ⟨pass.error, pass.state, rfl, rfl⟩
  | cons rule before ih =>
      rw [List.forall_mem_cons] at valid
      have room := enough _ (chainName_mem valid.1.direction)
      rw [List.length_cons] at room
      have some_rounds : (chains pass.state (chainName rule.direction)).count rule.body < rounds := by
        have count := List.count_le_length (a := rule.body)
          (l := chains pass.state (chainName rule.direction))
        omega
      obtain ⟨error, settled, runs, settled_eq⟩ :=
        setRule_eq usual valid.1 before.length some_rounds
      have enough' : ∀ chain ∈ chainNames, (chains settled chain).length + before.length < rounds := by
        intro chain mem
        have longer := length_settle_le rule (chains pass.state) chain
        have more := enough chain mem
        rw [List.length_cons] at more
        rw [settled_eq]
        omega
      obtain ⟨error', final, runs', final_eq⟩ :=
        @ih { pass with error := error, state := settled } valid.2 enough'
      rw [setRulesFrom, runs]
      refine ⟨error', final, runs', ?_⟩
      rw [final_eq, settled_eq, List.foldl_cons]

theorem setRules_eq (usual : HasUsualMeaning host chains) {rules : List IpTablesRule}
    (valid : ∀ rule ∈ rules, rule.IsValid) (state : σ) {rounds : ℕ}
    (enough : ∀ chain ∈ chainNames, (chains state chain).length + rules.length < rounds) :
    ∃ final, setRules host rounds rules state = .ok (0, [], final) ∧
      chains final = rules.foldr settle (chains state) := by
  have valid' : ∀ rule ∈ rules.reverse, rule.IsValid :=
    fun rule mem => valid rule (List.mem_reverse.mp mem)
  obtain ⟨error, final, runs, final_eq⟩ :=
    @setRulesFrom_eq _ _ _ ⟨0, [], [], state⟩ usual _ valid' _ (by simpa using enough)
  refine ⟨final, ?_, by rw [final_eq, List.foldl_reverse]⟩
  rw [setRules, runs]
  rfl

end Steps

section Chains

variable {rules : List IpTablesRule}

/-- The rules of a request for a chain, and whether they are desired. -/
def entriesOf (rules : List IpTablesRule) (chain : ByteString) : List (ByteString × Bool) :=
  (rules.filter fun rule => chainName rule.direction = chain).map fun rule =>
    (rule.body, decide (rule.desiredState = bytes "present"))

theorem foldr_settle (rules : List IpTablesRule) (chains : Chains) (chain : ByteString) :
    rules.foldr settle chains chain = (entriesOf rules chain).foldr put (chains chain) := by
  induction rules with
  | nil => rfl
  | cons rule rules ih =>
      rw [List.foldr_cons, settle]
      by_cases same : chainName rule.direction = chain
      · have here : entriesOf (rule :: rules) chain =
            (rule.body, decide (rule.desiredState = bytes "present")) :: entriesOf rules chain := by
          simp [entriesOf, same]
        rw [here, List.foldr_cons, ← ih, same, Function.update_self]
      · have elsewhere : entriesOf (rule :: rules) chain = entriesOf rules chain := by
          simp [entriesOf, same]
        rw [elsewhere, ← ih, Function.update_of_ne (Ne.symm same)]

theorem nodup_entriesOf (distinct : (rules.map IpTablesRule.specification).Nodup)
    (chain : ByteString) : ((entriesOf rules chain).map Prod.fst).Nodup := by
  have some_rules := distinct.sublist
    ((List.filter_sublist (p := fun rule => chainName rule.direction = chain)).map
      IpTablesRule.specification)
  have same : (rules.filter fun rule => chainName rule.direction = chain).map
      IpTablesRule.specification =
        ((entriesOf rules chain).map Prod.fst).map fun body => chain ++ bytes " " ++ body := by
    rw [entriesOf, List.map_map, List.map_map]
    refine List.map_congr_left fun rule mem => ?_
    have here : chainName rule.direction = chain := by simpa using List.of_mem_filter mem
    simp [IpTablesRule.specification, here]
  rw [same] at some_rules
  exact some_rules.of_map _

def bodiesOf (rules : List IpTablesRule) (desiredState chain : ByteString) : List ByteString :=
  (rules.filter fun rule => chainName rule.direction = chain && rule.desiredState = desiredState).map
    IpTablesRule.body

/-- The present rules stand in a chain in their order, the absent ones do not, and the other rules
stand in it as before. -/
structure IsAsDesired (rules : List IpTablesRule) (chain : ByteString)
    (before after : List ByteString) : Prop where
  present : ∀ body ∈ bodiesOf rules (bytes "present") chain, body ∈ after
  ordered : (bodiesOf rules (bytes "present") chain).Pairwise fun body other =>
    after.idxOf body < after.idxOf other
  absent : ∀ body ∈ bodiesOf rules (bytes "absent") chain, body ∉ after
  others : (after.filter fun body => body ∉ bodiesOf rules (bytes "present") chain ++
      bodiesOf rules (bytes "absent") chain) =
    before.filter fun body => body ∉ bodiesOf rules (bytes "present") chain ++
      bodiesOf rules (bytes "absent") chain

theorem wanted_entriesOf (rules : List IpTablesRule) (chain : ByteString) :
    wanted (entriesOf rules chain) = bodiesOf rules (bytes "present") chain := by
  rw [wanted, entriesOf, bodiesOf, List.filter_map, List.map_map, List.filter_filter]
  refine congrArg _ (List.filter_congr fun rule _ => ?_)
  exact Bool.and_comm _ _

theorem unwanted_entriesOf (valid : ∀ rule ∈ rules, rule.IsValid) (chain : ByteString) :
    unwanted (entriesOf rules chain) = bodiesOf rules (bytes "absent") chain := by
  rw [unwanted, entriesOf, bodiesOf, List.filter_map, List.map_map, List.filter_filter]
  refine congrArg _ (List.filter_congr fun rule mem => ?_)
  have either := (valid rule mem).desiredState
  have differ : bytes "present" ≠ bytes "absent" := by decide
  simp only [desiredStates, List.mem_cons, List.not_mem_nil, or_false] at either
  rcases either with present | absent
  · simp [present, differ]
  · simp [absent, differ.symm]

/-- A chain is as desired exactly if behind a rule that it had all later ones were there, in their
order. -/
theorem isAsDesired_foldr_iff (valid : ∀ rule ∈ rules, rule.IsValid)
    (distinct : (rules.map IpTablesRule.specification).Nodup) (chain : ByteString)
    (before : List ByteString) :
    IsAsDesired rules chain before ((entriesOf rules chain).foldr put before) ↔
      (bodiesOf rules (bytes "present") chain).Pairwise fun body other =>
        body ∈ before → other ∈ before ∧ before.idxOf body < before.idxOf other := by
  have nodup := nodup_entriesOf distinct chain
  have ordered := DesiredEntries.pairwise_idxOf_iff nodup before
  rw [wanted_entriesOf] at ordered
  rw [← ordered]
  constructor
  · exact IsAsDesired.ordered
  · intro inOrder
    refine ⟨fun body mem => ?_, inOrder, fun body mem => ?_, ?_⟩
    · rw [← wanted_entriesOf] at mem
      exact DesiredEntries.mem_of_wanted nodup mem
    · rw [← unwanted_entriesOf valid] at mem
      exact DesiredEntries.notMem_of_unwanted nodup mem
    · rw [← wanted_entriesOf, ← unwanted_entriesOf valid]
      exact DesiredEntries.filter_others nodup

/-- With enough rounds a request returns zero. Both chains are then as desired exactly if behind a
rule that a chain had all later ones were there, in their order. -/
theorem setRules_asDesired_iff {σ : Type} {host : Host σ} {chains : σ → Chains}
    (usual : HasUsualMeaning host chains) {document : Json}
    (noErrors : ∀ rule ∈ parseArray IpTablesRule.parse document, rule.parseError = [])
    (distinct : ((parseArray IpTablesRule.parse document).map IpTablesRule.specification).Nodup)
    (state : σ) :
    ∃ enough, ∀ rounds ≥ enough, ∃ final,
      setRules host rounds (parseArray IpTablesRule.parse document) state = .ok (0, [], final) ∧
        ((∀ chain ∈ chainNames, IsAsDesired (parseArray IpTablesRule.parse document) chain
            (chains state chain) (chains final chain)) ↔
          ∀ chain ∈ chainNames,
            (bodiesOf (parseArray IpTablesRule.parse document) (bytes "present") chain).Pairwise
              fun body other => body ∈ chains state chain →
                other ∈ chains state chain ∧
                  (chains state chain).idxOf body < (chains state chain).idxOf other) := by
  have valid : ∀ rule ∈ parseArray IpTablesRule.parse document, rule.IsValid :=
    fun rule mem => isValid_of_mem mem (noErrors rule mem)
  refine ⟨(chains state (bytes "INPUT")).length + (chains state (bytes "OUTPUT")).length +
    (parseArray IpTablesRule.parse document).length + 1, fun rounds enough => ?_⟩
  have room : ∀ chain ∈ chainNames, (chains state chain).length +
      (parseArray IpTablesRule.parse document).length < rounds := by
    simp only [chainNames, List.forall_mem_cons, List.not_mem_nil, false_implies, implies_true,
      and_true]
    constructor <;> omega
  obtain ⟨final, runs, final_eq⟩ := setRules_eq usual valid state room
  refine ⟨final, runs, forall_congr' fun chain => imp_congr_right fun _ => ?_⟩
  rw [final_eq, foldr_settle]
  exact isAsDesired_foldr_iff valid distinct chain _

theorem length_foldr_settle_le (rules : List IpTablesRule) (chains : Chains) (chain : ByteString) :
    (rules.foldr settle chains chain).length ≤ (chains chain).length + rules.length := by
  induction rules with
  | nil => exact le_rfl
  | cons rule rules ih =>
      have longer := length_settle_le rule (rules.foldr settle chains) chain
      rw [List.foldr_cons, List.length_cons]
      omega

/-- With enough rounds a request that is made again returns zero and leaves the chains as the first
one made them. -/
theorem setRules_twice {σ : Type} {host : Host σ} {chains : σ → Chains}
    (usual : HasUsualMeaning host chains) {document : Json}
    (noErrors : ∀ rule ∈ parseArray IpTablesRule.parse document, rule.parseError = [])
    (distinct : ((parseArray IpTablesRule.parse document).map IpTablesRule.specification).Nodup)
    (state : σ) :
    ∃ enough, ∀ rounds ≥ enough, ∃ once twice,
      setRules host rounds (parseArray IpTablesRule.parse document) state = .ok (0, [], once) ∧
      setRules host rounds (parseArray IpTablesRule.parse document) once = .ok (0, [], twice) ∧
      chains twice = chains once := by
  have valid : ∀ rule ∈ parseArray IpTablesRule.parse document, rule.IsValid :=
    fun rule mem => isValid_of_mem mem (noErrors rule mem)
  generalize parseArray IpTablesRule.parse document = rules at valid distinct ⊢
  refine ⟨(chains state (bytes "INPUT")).length + (chains state (bytes "OUTPUT")).length +
    2 * rules.length + 1, fun rounds enough => ?_⟩
  have room : ∀ chain ∈ chainNames, (chains state chain).length + 2 * rules.length < rounds := by
    simp only [chainNames, List.forall_mem_cons, List.not_mem_nil, false_implies, implies_true,
      and_true]
    constructor <;> omega
  obtain ⟨once, runs, once_eq⟩ := setRules_eq usual valid state
    fun chain mem => (Nat.add_le_add_left (by omega) _).trans_lt (room chain mem)
  have room' : ∀ chain ∈ chainNames, (chains once chain).length + rules.length < rounds := by
    intro chain mem
    have longer := length_foldr_settle_le rules (chains state) chain
    have fits := room chain mem
    rw [once_eq]
    omega
  obtain ⟨twice, runs', twice_eq⟩ := setRules_eq usual valid once room'
  refine ⟨once, twice, runs, runs', ?_⟩
  funext chain
  rw [twice_eq, once_eq, foldr_settle, foldr_settle,
    DesiredEntries.foldr_put_foldr_put (nodup_entriesOf distinct chain)]

section Examples

/-- The chain that a specification names, and what is behind its name. -/
def chainOf (specification : ByteString) : ByteString :=
  specification.takeWhile (· ≠ 32)

def bodyOf (specification : ByteString) : ByteString :=
  (specification.dropWhile (· ≠ 32)).drop 1

def chainsHost : Host Chains where
  execute command chains :=
    let specification := command.drop 12
    let rules := chains (chainOf specification)
    if command.startsWith (bytes "iptables -C ") then
      (⟨if bodyOf specification ∈ rules then 0 else 1, none⟩, chains)
    else if command.startsWith (bytes "iptables -I ") then
      (⟨0, none⟩,
        Function.update chains (chainOf specification) (bodyOf specification :: rules))
    else if command.startsWith (bytes "iptables -D ") then
      (⟨if bodyOf specification ∈ rules then 0 else 1, none⟩,
        Function.update chains (chainOf specification) (rules.erase (bodyOf specification)))
    else (⟨1, none⟩, chains)

theorem hasUsualMeaning_chainsHost : HasUsualMeaning chainsHost id := by
  have parts : ∀ chain ∈ chainNames, ∀ body : ByteString,
      chainOf (chain ++ bytes " " ++ body) = chain ∧ bodyOf (chain ++ bytes " " ++ body) = body := by
    intro chain mem body
    have letters : ∀ byte ∈ chain, decide (byte ≠ 32) = true := by
      revert chain
      decide +kernel
    rw [chainOf, bodyOf, List.append_assoc, List.takeWhile_append_of_pos letters,
      List.dropWhile_append_of_pos letters]
    exact ⟨List.append_nil chain, rfl⟩
  have check : ∀ specification state,
      chainsHost.execute (bytes "iptables -C " ++ specification) state =
        (⟨if bodyOf specification ∈ state (chainOf specification) then 0 else 1, none⟩, state) :=
    fun _ _ => rfl
  have insert : ∀ specification state,
      chainsHost.execute (bytes "iptables -I " ++ specification) state =
        (⟨0, none⟩, Function.update state (chainOf specification)
          (bodyOf specification :: state (chainOf specification))) :=
    fun _ _ => rfl
  have delete : ∀ specification state,
      chainsHost.execute (bytes "iptables -D " ++ specification) state =
        (⟨if bodyOf specification ∈ state (chainOf specification) then 0 else 1, none⟩,
          Function.update state (chainOf specification)
            ((state (chainOf specification)).erase (bodyOf specification))) :=
    fun _ _ => rfl
  refine ⟨?_, ?_, ?_⟩
  · intro chain mem body state
    rw [check, (parts chain mem body).1, (parts chain mem body).2]
    simp
  · intro chain mem body state
    rw [insert, (parts chain mem body).1, (parts chain mem body).2]
    exact ⟨rfl, rfl⟩
  · intro chain mem body state there
    rw [delete, (parts chain mem body).1, (parts chain mem body).2]
    exact ⟨if_pos there, rfl⟩

def acceptPort (port : BitVec 64) : Json :=
  .object [(actionName, .string (bytes "accept")), (desiredStateName, .string (bytes "present")),
    (destinationPortName, .unsigned port), (directionName, .string (bytes "in")),
    (protocolName, .string (bytes "tcp"))]

def twoPorts : Json := .array [acceptPort 22, acceptPort 80]

/-- The input chain lets the first of two ports in already. -/
def firstPortOnly : Chains :=
  Function.update (fun _ => []) (bytes "INPUT")
    [(IpTablesRule.parse (acceptPort 22)).body]

theorem isValid_twoPorts : ∀ rule ∈ parseArray IpTablesRule.parse twoPorts, rule.IsValid := by
  have noErrors : ∀ rule ∈ parseArray IpTablesRule.parse twoPorts, rule.parseError = [] := by
    decide +kernel
  exact fun rule mem => isValid_of_mem mem (noErrors rule mem)

theorem distinct_twoPorts :
    ((parseArray IpTablesRule.parse twoPorts).map IpTablesRule.specification).Nodup := by
  decide +kernel

/-- Empty chains get both ports in their order. -/
theorem setRules_twoPorts :
    ∃ enough, ∀ rounds ≥ enough, ∃ final,
      setRules chainsHost rounds (parseArray IpTablesRule.parse twoPorts) (fun _ => []) =
          .ok (0, [], final) ∧
        ∀ chain ∈ chainNames,
          IsAsDesired (parseArray IpTablesRule.parse twoPorts) chain [] (final chain) := by
  obtain ⟨enough, runs⟩ := setRules_asDesired_iff hasUsualMeaning_chainsHost
    (fun rule mem => (isValid_twoPorts rule mem).noError) distinct_twoPorts (fun _ => [])
  refine ⟨enough, fun rounds more => ?_⟩
  obtain ⟨final, returned, asDesired⟩ := runs rounds more
  exact ⟨final, returned, asDesired.mpr (by decide +kernel)⟩

/-- The second time both ports are in the chain. -/
theorem setRules_twice_twoPorts :
    ∃ enough, ∀ rounds ≥ enough, ∃ once twice,
      setRules chainsHost rounds (parseArray IpTablesRule.parse twoPorts) firstPortOnly =
          .ok (0, [], once) ∧
        setRules chainsHost rounds (parseArray IpTablesRule.parse twoPorts) once =
          .ok (0, [], twice) ∧
        twice = once :=
  setRules_twice hasUsualMeaning_chainsHost
    (fun rule mem => (isValid_twoPorts rule mem).noError) distinct_twoPorts firstPortOnly

/-- The second port is put in front of the first. -/
theorem setRules_firstPortOnly :
    ∃ final, setRules chainsHost 4 (parseArray IpTablesRule.parse twoPorts) firstPortOnly =
        .ok (0, [], final) ∧
      ¬IsAsDesired (parseArray IpTablesRule.parse twoPorts) (bytes "INPUT")
        (firstPortOnly (bytes "INPUT")) (final (bytes "INPUT")) := by
  have room : ∀ chain ∈ chainNames,
      (id firstPortOnly chain).length + (parseArray IpTablesRule.parse twoPorts).length < 4 := by
    decide +kernel
  obtain ⟨final, runs, final_eq⟩ :=
    setRules_eq hasUsualMeaning_chainsHost isValid_twoPorts firstPortOnly room
  refine ⟨final, runs, ?_⟩
  have here : final (bytes "INPUT") = _ := congrFun final_eq (bytes "INPUT")
  rw [here, foldr_settle, id_eq, isAsDesired_foldr_iff isValid_twoPorts distinct_twoPorts]
  decide +kernel

end Examples

end Chains

end OsConfig.Firewall
