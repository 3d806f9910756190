import OsConfig.Firewall

/-!
# Failures of commands

A request looks at what the commands answer. It ends with the right status if the
removals end, and if each command that fails prints something: a text is made of
what it printed, whether there is anything or not. A document that is no array is
taken for one without elements.
-/

namespace OsConfig.Firewall

open CommandRunner (Json)

section Recording

variable {σ : Type}

/-- The commands that were carried out, with what they answered. -/
abbrev Log := List (ByteString × Answer)

/-- The same host, with a log of its commands. -/
def Host.recorded (host : Host σ) : Host (σ × Log) where
  execute command state :=
    let answer := host.execute command state.1
    (answer.1, (answer.2, state.2 ++ [(command, answer.1)]))

/-- A command that tests for a rule. -/
def isCheck (command : ByteString) : Bool :=
  command.startsWith (bytes "iptables -C ")

/-- A command failed that changes something. -/
def FailedIn (log : Log) : Prop :=
  ∃ entry ∈ log, isCheck entry.1 = false ∧ entry.2.status ≠ 0

theorem failedIn_append_singleton {log : Log} {command : ByteString} {answer : Answer} :
    FailedIn (log ++ [(command, answer)]) ↔
      FailedIn log ∨ isCheck command = false ∧ answer.status ≠ 0 := by
  unfold FailedIn
  simp only [List.mem_append, List.mem_singleton, or_and_right, exists_or, exists_eq_left]

/-- A command that fails and prints nothing leaves no text. -/
def Answer.Speaks (answer : Answer) : Prop :=
  answer.status ≠ 0 → answer.textResult ≠ none

end Recording

section Settling

variable {σ : Type} (host : Host σ) (rule : IpTablesRule)

/-- The answers for a rule, and the state behind each command. -/
def checked (state : σ) : Answer × σ :=
  host.execute (bytes "iptables -C " ++ rule.specification) state

def inserted (state : σ) : Answer × σ :=
  host.execute (bytes "iptables -I " ++ rule.specification) (checked host rule state).2

def deleted (state : σ) : Answer × σ :=
  host.execute (bytes "iptables -D " ++ rule.specification) (checked host rule state).2

/-- The removals of a rule end, from a state to another one. -/
inductive Removes : σ → σ → Prop where
  | gone (state : σ) (absent : (checked host rule state).1.status ≠ 0) :
      Removes state (checked host rule state).2
  | again (state final : σ) (found : (checked host rule state).1.status = 0)
      (speaks : (deleted host rule state).1.Speaks)
      (later : Removes (deleted host rule state).2 final) : Removes state final

/-- A rule is settled, from a state to another one. -/
inductive Settles : σ → σ → Prop where
  | faulty (state : σ) (error : rule.parseError ≠ []) : Settles state state
  | there (state : σ) (noError : rule.parseError = [])
      (present : rule.desiredState = bytes "present")
      (found : (checked host rule state).1.status = 0) :
      Settles state (checked host rule state).2
  | missing (state : σ) (noError : rule.parseError = [])
      (present : rule.desiredState = bytes "present")
      (absent : (checked host rule state).1.status ≠ 0)
      (speaks : (inserted host rule state).1.Speaks) :
      Settles state (inserted host rule state).2
  | removed (state final : σ) (noError : rule.parseError = [])
      (absent : rule.desiredState = bytes "absent")
      (removes : Removes host rule state final) : Settles state final

/-- Rules are settled one after the other. -/
inductive SettlesAll : List IpTablesRule → σ → σ → Prop where
  | nil (state : σ) : SettlesAll [] state state
  | cons (rule : IpTablesRule) (before : List IpTablesRule) (state middle final : σ)
      (first : Settles host rule state middle) (later : SettlesAll before middle final) :
      SettlesAll (rule :: before) state final

end Settling

section Commands

variable {σ : Type} {host : Host σ}

theorem execute_recorded (command : ByteString) (state : σ × Log) :
    host.recorded.execute command state =
      ((host.execute command state.1).1, (host.execute command state.1).2,
        state.2 ++ [(command, (host.execute command state.1).1)]) := by
  rfl

theorem isCheck_check (specification : ByteString) :
    isCheck (bytes "iptables -C " ++ specification) = true := by
  rfl

theorem isCheck_insert (specification : ByteString) :
    isCheck (bytes "iptables -I " ++ specification) = false := by
  rfl

theorem isCheck_delete (specification : ByteString) :
    isCheck (bytes "iptables -D " ++ specification) = false := by
  rfl

theorem isCheck_policy (specification : ByteString) :
    isCheck (bytes "iptables -P " ++ specification) = false := by
  rfl

theorem of_change {command error : ByteString} {state : σ} {result : ℤ × ByteString × σ}
    (goesOn : change host command error state = .ok result) :
    (host.execute command state).1.Speaks ∧
      result.1 = (host.execute command state).1.status ∧
      result.2.2 = (host.execute command state).2 := by
  rw [change] at goesOn
  split at goesOn
  next fails =>
    split at goesOn
    · cases goesOn
    next text printed =>
      cases goesOn
      refine ⟨fun _ => ?_, rfl, rfl⟩
      rw [printed]
      exact Option.some_ne_none text
  next succeeds =>
    cases goesOn
    have zero := not_not.mp succeeds
    exact ⟨fun fails => absurd zero fails, zero.symm, rfl⟩

theorem change_of_speaks (host : Host σ) (command : ByteString) (state : σ)
    (speaks : (host.execute command state).1.Speaks) (error : ByteString) :
    ∃ result, change host command error state = .ok result := by
  by_cases succeeds : (host.execute command state).1.status = 0
  · exact ⟨_, change_of_zero host succeeds error⟩
  · obtain ⟨text, printed⟩ := Option.ne_none_iff_exists'.mp (speaks succeeds)
    refine ⟨((host.execute command state).1.status, text, (host.execute command state).2), ?_⟩
    simp only [change, succeeds, printed, ne_eq, not_false_eq_true, if_true]

end Commands

section Passes

variable {σ : Type} {host : Host σ} {rule : IpTablesRule} {earlier : Prop}
  {pass next : Pass (σ × Log)} {index rounds : ℕ}

/-- The errors of a pass tell of the commands that failed, and of what failed earlier. -/
structure Pass.Tells (earlier : Prop) (pass : Pass (σ × Log)) : Prop where
  status : pass.status = 0
  errors : pass.errors ≠ [] ↔ earlier ∨ FailedIn pass.state.2

theorem Pass.Tells.afterCheck (tells : pass.Tells earlier) (host : Host σ) (rule : IpTablesRule) :
    ({ pass with state := (ruleExists host.recorded rule pass.state).2 } : Pass _).Tells
      earlier := by
  refine ⟨tells.status, tells.errors.trans (or_congr_right ?_)⟩
  simp only [ruleExists, Host.recorded]
  rw [failedIn_append_singleton, isCheck_check]
  simp only [reduceCtorEq, false_and, or_false]

theorem Pass.Tells.afterChange (tells : pass.Tells earlier) {command error message : ByteString}
    {result : ℤ × ByteString × (σ × Log)} (isChange : isCheck command = false)
    (goesOn : change host.recorded command error pass.state = .ok result) :
    (pass.after message index result).Tells earlier := by
  obtain ⟨-, status_eq, state_eq⟩ := of_change goesOn
  refine ⟨tells.status, ?_⟩
  simp only [Pass.after, state_eq, status_eq, Host.recorded]
  rw [failedIn_append_singleton, isChange, ← or_assoc, ← tells.errors]
  split
  next fails => simp [fails]
  next succeeds => simp [not_not.mp succeeds]

theorem removes_of_removeAll (tells : pass.Tells earlier)
    (ran : removeAll host.recorded rule index rounds pass = .ok next) :
    Removes host rule pass.state.1 next.state.1 ∧ next.Tells earlier := by
  induction rounds generalizing pass with
  | zero => cases ran
  | succ rounds ih =>
      rw [removeAll] at ran
      have checkTells := tells.afterCheck host rule
      split at ran
      next found =>
        split at ran
        · cases ran
        next result goesOn =>
          have isChange := isCheck_delete rule.specification
          have afterTells : (pass.after (bytes "Failed to remove rule (") index result).Tells
              earlier := checkTells.afterChange isChange goesOn
          obtain ⟨removes, nextTells⟩ := ih afterTells ran
          obtain ⟨speaks, -, state_eq⟩ := of_change goesOn
          simp only [Pass.after, state_eq] at removes
          exact ⟨.again _ _ (of_decide_eq_true found) speaks removes, nextTells⟩
      next missing =>
        cases ran
        exact ⟨.gone _ (of_decide_eq_false (Bool.eq_false_of_not_eq_true missing)), checkTells⟩

theorem removeAll_of_removes {start final : σ} (removes : Removes host rule start final)
    (index : ℕ) : ∀ pass : Pass (σ × Log), pass.state.1 = start → ∃ next, next.state.1 = final ∧
      ∃ least, ∀ rounds ≥ least, removeAll host.recorded rule index rounds pass = .ok next := by
  induction removes with
  | gone start absent =>
      intro pass start_eq
      subst start_eq
      refine ⟨{ pass with state := (ruleExists host.recorded rule pass.state).2 }, rfl, 1, ?_⟩
      intro rounds enough
      obtain ⟨rounds, rfl⟩ := Nat.exists_eq_add_of_le' enough
      have missing : (ruleExists host.recorded rule pass.state).1 = false :=
        decide_eq_false absent
      simp only [removeAll, missing, Bool.false_eq_true, if_false]
  | again start final found speaks later ih =>
      intro pass start_eq
      subst start_eq
      have present : (ruleExists host.recorded rule pass.state).1 = true := decide_eq_true found
      obtain ⟨result, goesOn⟩ := change_of_speaks host.recorded
        (bytes "iptables -D " ++ rule.specification)
        (ruleExists host.recorded rule pass.state).2 speaks pass.error
      obtain ⟨-, -, state_eq⟩ := of_change goesOn
      obtain ⟨next, final_eq, least, enough⟩ :=
        ih (pass.after (bytes "Failed to remove rule (") index result)
          (congrArg Prod.fst state_eq)
      refine ⟨next, final_eq, least + 1, ?_⟩
      intro rounds atLeast
      obtain ⟨more, rfl⟩ := Nat.exists_eq_add_of_le atLeast
      rw [Nat.add_right_comm, removeAll, if_pos present, remove, goesOn]
      exact enough _ (Nat.le_add_right least more)

theorem settles_of_setRule (isValid : rule.parseError = [] → rule.IsValid)
    (tells : pass.Tells earlier)
    (ran : setRule host.recorded rounds rule index pass = .ok next) :
    Settles host rule pass.state.1 next.state.1 ∧
      next.Tells (earlier ∨ rule.parseError ≠ []) := by
  rw [setRule] at ran
  split at ran
  next error =>
    cases ran
    refine ⟨.faulty _ error, tells.status, ?_⟩
    simp [error]
  next noError =>
    have clean := not_not.mp noError
    rw [eq_false noError, or_false]
    have checkTells := tells.afterCheck host rule
    split at ran
    next present =>
      dsimp only at ran
      split at ran
      next found =>
        cases ran
        exact ⟨.there _ clean present (of_decide_eq_true found), checkTells⟩
      next missing =>
        split at ran
        · cases ran
        next result goesOn =>
          cases ran
          have absent := of_decide_eq_false (Bool.eq_false_of_not_eq_true missing)
          obtain ⟨speaks, -, state_eq⟩ := of_change goesOn
          have isChange := isCheck_insert rule.specification
          refine ⟨?_, checkTells.afterChange isChange goesOn⟩
          simp only [Pass.after, state_eq]
          exact .missing _ clean present absent speaks
    next notPresent =>
      split at ran
      next absent =>
        obtain ⟨removes, nextTells⟩ := removes_of_removeAll tells ran
        exact ⟨.removed _ _ clean absent removes, nextTells⟩
      next notAbsent =>
        have desiredState := (isValid clean).desiredState
        simp [desiredStates, notPresent, notAbsent] at desiredState

theorem setRule_of_settles {start final : σ} (settles : Settles host rule start final)
    (index : ℕ) (pass : Pass (σ × Log)) (start_eq : pass.state.1 = start) : ∃ next, next.state.1 = final ∧
      ∃ least, ∀ rounds ≥ least, setRule host.recorded rounds rule index pass = .ok next := by
  subst start_eq
  cases settles with
  | faulty error =>
      refine ⟨_, ?_, 0, fun rounds _ => by rw [setRule, if_pos error]⟩
      rfl
  | there clean present found =>
      have exists_eq : (ruleExists host.recorded rule pass.state).1 = true := decide_eq_true found
      refine ⟨_, ?_, 0, fun rounds _ => by
        rw [setRule, if_neg (not_not.mpr clean), if_pos present, if_pos exists_eq]⟩
      rfl
  | missing clean present absent speaks =>
      have missing : ¬ (ruleExists host.recorded rule pass.state).1 = true :=
        ne_true_of_eq_false (decide_eq_false absent)
      obtain ⟨result, goesOn⟩ := change_of_speaks host.recorded
        (bytes "iptables -I " ++ rule.specification)
        (ruleExists host.recorded rule pass.state).2 speaks pass.error
      obtain ⟨-, -, state_eq⟩ := of_change goesOn
      refine ⟨pass.after (bytes "Failed to add rule (") index result,
        congrArg Prod.fst state_eq, 0, fun rounds _ => ?_⟩
      rw [setRule, if_neg (not_not.mpr clean), if_pos present, if_neg missing, add, goesOn]
  | removed _ clean absent removes =>
      obtain ⟨next, final_eq, least, enough⟩ :=
        removeAll_of_removes removes index pass rfl
      refine ⟨next, final_eq, least, fun rounds atLeast => ?_⟩
      have notPresent : rule.desiredState ≠ bytes "present" := by
        rw [absent]
        decide
      rw [setRule, if_neg (not_not.mpr clean), if_neg notPresent, if_pos absent]
      exact enough rounds atLeast

theorem settlesAll_of_setRulesFrom {rules : List IpTablesRule}
    (areValid : ∀ rule ∈ rules, rule.parseError = [] → rule.IsValid)
    (tells : pass.Tells earlier)
    (ran : setRulesFrom host.recorded rounds rules pass = .ok next) :
    SettlesAll host rules pass.state.1 next.state.1 ∧
      next.Tells (earlier ∨ ∃ rule ∈ rules, rule.parseError ≠ []) := by
  induction rules generalizing pass earlier with
  | nil =>
      cases ran
      refine ⟨.nil _, tells.status, ?_⟩
      simpa using tells.errors
  | cons rule before ih =>
      rw [setRulesFrom] at ran
      split at ran
      · cases ran
      next middle first =>
        have isValid := areValid rule List.mem_cons_self
        obtain ⟨settles, middleTells⟩ := settles_of_setRule isValid tells first
        have areValidBefore := fun earlierRule mem =>
          areValid earlierRule (List.mem_cons_of_mem rule mem)
        obtain ⟨settlesBefore, nextTells⟩ := ih areValidBefore middleTells ran
        refine ⟨.cons rule before _ _ _ settles settlesBefore, ?_⟩
        rw [List.exists_mem_cons_iff, ← or_assoc]
        exact nextTells

theorem setRulesFrom_of_settlesAll {rules : List IpTablesRule} {start final : σ}
    (settlesAll : SettlesAll host rules start final) :
    ∀ pass : Pass (σ × Log), pass.state.1 = start →
      ∃ next, ∃ least, ∀ rounds ≥ least,
        setRulesFrom host.recorded rounds rules pass = .ok next := by
  induction settlesAll with
  | nil start => exact fun pass _ => ⟨pass, 0, fun rounds _ => rfl⟩
  | cons rule before start middle final first later ih =>
      intro pass start_eq
      obtain ⟨between, middle_eq, few, enough⟩ :=
        setRule_of_settles first before.length pass start_eq
      obtain ⟨next, many, enoughLater⟩ := ih between middle_eq
      refine ⟨next, max few many, fun rounds atLeast => ?_⟩
      rw [setRulesFrom, enough rounds (le_of_max_le_left atLeast)]
      exact enoughLater rounds (le_of_max_le_right atLeast)

end Passes

section Policies

variable {σ : Type} (host : Host σ)

/-- The policies that are carried out speak. -/
def PoliciesSpeak : List IpTablesPolicy → σ → Prop
  | [], _ => True
  | policy :: rest, state =>
      if policy.parseError = [] then
        let answer := host.execute (bytes "iptables -P " ++ policy.specification) state
        answer.1.Speaks ∧ PoliciesSpeak rest answer.2
      else PoliciesSpeak rest state

/-- The status and the errors of a pass tell of what failed. -/
structure Pass.Reports (earlier : Prop) (pass : Pass (σ × Log)) : Prop where
  status : pass.status ≠ 0 ↔ earlier ∨ FailedIn pass.state.2
  errors : pass.errors ≠ [] ↔ earlier ∨ FailedIn pass.state.2

variable {host} {earlier : Prop} {pass : Pass (σ × Log)}

theorem setPoliciesFrom_iff (policies : List IpTablesPolicy) (index : ℕ)
    (reports : pass.Reports earlier) :
    (∃ next, setPoliciesFrom host.recorded policies index pass = .ok next ∧
      next.Reports (earlier ∨ ∃ policy ∈ policies, policy.parseError ≠ [])) ↔
      PoliciesSpeak host policies pass.state.1 := by
  induction policies generalizing pass earlier index with
  | nil => simpa [setPoliciesFrom, PoliciesSpeak] using reports
  | cons policy rest ih =>
      rw [setPoliciesFrom, PoliciesSpeak]
      simp only [List.exists_mem_cons_iff, ← or_assoc]
      split
      next clean =>
        have isChange := isCheck_policy policy.specification
        simp only [clean, execute_recorded, ne_eq, not_true_eq_false, or_false]
        generalize bytes "iptables -P " ++ policy.specification = command at isChange
        generalize answer_eq : host.execute command pass.state.1 = answer
        by_cases succeeds : answer.1.status = 0
        · have speaks : answer.1.Speaks := fun fails => absurd succeeds fails
          rw [if_neg (not_not.mpr succeeds), and_iff_right speaks]
          refine ih (index + 1) ⟨?_, ?_⟩
          · rw [failedIn_append_singleton]
            simpa [succeeds] using reports.status
          · rw [failedIn_append_singleton]
            simpa [succeeds] using reports.errors
        · rw [if_pos succeeds]
          cases printed : answer.1.textResult with
          | none => simp [Answer.Speaks, succeeds, printed]
          | some text =>
              have speaks : answer.1.Speaks := fun _ => by
                rw [printed]
                exact Option.some_ne_none text
              rw [and_iff_right speaks]
              refine ih (index + 1) ⟨?_, ?_⟩
              · rw [failedIn_append_singleton]
                simp [succeeds, isChange]
              · rw [failedIn_append_singleton]
                simp [succeeds, isChange]
      next error =>
        refine ih (index + 1) ⟨?_, ?_⟩
        · simp [error, einval]
        · simp [error]

end Policies

section Requests

variable {σ : Type} (host : Host σ)

/-- What is expected of a request: its status and the message it leaves tell of what failed, and the
status of the configuration tells of both messages. -/
structure ReportsExactly (failed : Prop) (status : ℤ) (message other : ByteString)
    (configuration : Status) : Prop where
  status : status ≠ 0 ↔ failed
  message : message ≠ [] ↔ failed
  failure : configuration = .failure ↔ failed ∨ other ≠ []
  success : configuration = .success ↔ ¬ (failed ∨ other ≠ [])

/-- What is expected of `SetRules`: it ends, it tells what failed, and a document that is no array is
rejected. -/
def RulesAreSurvived (document : Json) (messages : Messages) (state : σ) : Prop :=
  ∃ rounds status after final log,
    moduleSetRules host.recorded rounds document messages (state, []) =
      .ok (status, after, final, log) ∧
    ((∀ items, document ≠ .array items) → status ≠ 0) ∧
    after.policyStatusMessage = messages.policyStatusMessage ∧
    ReportsExactly ((∃ rule ∈ parseArray IpTablesRule.parse document, rule.parseError ≠ []) ∨ FailedIn log)
      status after.ruleStatusMessage messages.policyStatusMessage after.status

/-- What is expected of `SetDefaultPolicies`. -/
def PoliciesAreSurvived (document : Json) (messages : Messages) (state : σ) : Prop :=
  ∃ status after final log,
    moduleSetDefaultPolicies host.recorded document messages (state, []) =
      .ok (status, after, final, log) ∧
    ((∀ items, document ≠ .array items) → status ≠ 0) ∧
    after.ruleStatusMessage = messages.ruleStatusMessage ∧
    ReportsExactly ((∃ policy ∈ parseArray IpTablesPolicy.parse document, policy.parseError ≠ []) ∨
        FailedIn log)
      status after.policyStatusMessage messages.ruleStatusMessage after.status

variable {host} {document : Json} {messages : Messages} {state : σ}

theorem parseArray_of_ne {α : Type} {parse : Json → α}
    (notArray : ∀ items, document ≠ .array items) : parseArray parse document = [] := by
  cases document with
  | array items => exact absurd rfl (notArray items)
  | _ => rfl

theorem errorMessage_eq_nil_iff {errors : List ByteString} :
    errorMessage errors = [] ↔ errors = [] := by
  cases errors with
  | nil => simp [errorMessage]
  | cons error rest => simp [errorMessage]

theorem status_eq_success_iff {messages : Messages} :
    messages.status = .success ↔
      ¬ (messages.ruleStatusMessage ≠ [] ∨ messages.policyStatusMessage ≠ []) := by
  rw [Messages.status]
  split
  next empty => simp [empty]
  next notEmpty =>
    simp only [reduceCtorEq, ne_eq, false_iff, not_not]
    rwa [← not_and_or, and_comm]

theorem status_eq_failure_iff {messages : Messages} :
    messages.status = .failure ↔
      messages.ruleStatusMessage ≠ [] ∨ messages.policyStatusMessage ≠ [] := by
  rw [← not_iff_not, ← status_eq_success_iff, Messages.status]
  split <;> simp

theorem reportsExactly_of_message {failed : Prop} {status : ℤ} {message other : ByteString}
    {after : Messages} (status_iff : status ≠ 0 ↔ failed) (message_iff : message ≠ [] ↔ failed)
    (either : (after.ruleStatusMessage ≠ [] ∨ after.policyStatusMessage ≠ []) ↔
      message ≠ [] ∨ other ≠ []) :
    ReportsExactly failed status message other after.status where
  status := status_iff
  message := message_iff
  failure := by rw [status_eq_failure_iff, either, message_iff]
  success := by rw [status_eq_success_iff, either, message_iff]

theorem settlesAll_of_setRules {rounds : ℕ} {rules : List IpTablesRule}
    {result : ℤ × ByteString × σ × Log}
    (areValid : ∀ rule ∈ rules, rule.parseError = [] → rule.IsValid)
    (ran : setRules host.recorded rounds rules (state, []) = .ok result) :
    SettlesAll host rules.reverse state result.2.2.1 ∧
      (result.1 ≠ 0 ↔ (∃ rule ∈ rules, rule.parseError ≠ []) ∨ FailedIn result.2.2.2) ∧
      (result.2.1 ≠ [] ↔ (∃ rule ∈ rules, rule.parseError ≠ []) ∨ FailedIn result.2.2.2) := by
  rw [setRules] at ran
  have start : (⟨0, [], [], (state, [])⟩ : Pass (σ × Log)).Tells False :=
    ⟨rfl, by simp [FailedIn]⟩
  have areValidReverse : ∀ rule ∈ rules.reverse, rule.parseError = [] → rule.IsValid :=
    fun rule mem => areValid rule (List.mem_reverse.mp mem)
  split at ran
  · cases ran
  next pass passRan =>
    obtain ⟨settlesAll, tells⟩ := settlesAll_of_setRulesFrom areValidReverse start passRan
    have errors_iff := tells.errors
    simp only [List.mem_reverse, false_or] at errors_iff
    split at ran
    next errors =>
      cases ran
      have failed := errors_iff.mp errors
      refine ⟨settlesAll, by simpa [einval] using failed, ?_⟩
      rw [ne_eq, errorMessage_eq_nil_iff, List.reverse_eq_nil_iff]
      exact errors_iff
    next noErrors =>
      cases ran
      have notFailed := mt errors_iff.mpr noErrors
      exact ⟨settlesAll, by simp [tells.status, notFailed], by simp [notFailed]⟩

theorem setRules_of_settlesAll {rules : List IpTablesRule} {final : σ}
    (settlesAll : SettlesAll host rules.reverse state final) :
    ∃ rounds result, setRules host.recorded rounds rules (state, []) = .ok result := by
  obtain ⟨next, least, enough⟩ :=
    setRulesFrom_of_settlesAll settlesAll ⟨0, [], [], (state, [])⟩ rfl
  refine ⟨least, ?_⟩
  rw [setRules, enough least le_rfl]
  dsimp only
  split
  · exact ⟨_, rfl⟩
  · exact ⟨_, rfl⟩

theorem areValid_map_parse (items : List Json) :
    ∀ rule ∈ items.map IpTablesRule.parse, rule.parseError = [] → rule.IsValid := by
  intro rule mem
  obtain ⟨value, -, rfl⟩ := List.mem_map.mp mem
  exact isValid_parse

theorem rulesAreSurvived_iff : RulesAreSurvived host document messages state ↔
    ∃ items, document = .array items ∧
      ∃ final, SettlesAll host (items.map IpTablesRule.parse).reverse state final := by
  constructor
  · rintro ⟨rounds, status, after, final, log, ran, rejected, -, -⟩
    rw [moduleSetRules] at ran
    have isArray : ∃ items, document = .array items := by
      by_contra notArray
      rw [parseArray_of_ne (not_exists.mp notArray)] at ran
      have zero : (0 : ℤ) = status := congrArg Prod.fst (Except.ok.inj ran)
      exact rejected (not_exists.mp notArray) zero.symm
    obtain ⟨items, rfl⟩ := isArray
    have areValid := areValid_map_parse items
    cases setRules_eq : setRules host.recorded rounds (items.map IpTablesRule.parse)
        (state, []) with
    | error stop =>
        rw [parseArray, setRules_eq] at ran
        cases ran
    | ok result =>
        obtain ⟨settlesAll, -, -⟩ := settlesAll_of_setRules areValid setRules_eq
        exact ⟨items, rfl, result.2.2.1, settlesAll⟩
  · rintro ⟨items, rfl, final, settlesAll⟩
    obtain ⟨rounds, ⟨status, message, last, log⟩, ran⟩ := setRules_of_settlesAll settlesAll
    have areValid := areValid_map_parse items
    obtain ⟨-, status_iff, message_iff⟩ := settlesAll_of_setRules areValid ran
    refine ⟨rounds, status, { messages with ruleStatusMessage := message }, last, log, ?_,
      fun notArray => absurd rfl (notArray items), rfl, ?_⟩
    · rw [moduleSetRules, parseArray, ran]
      rfl
    · exact reportsExactly_of_message status_iff message_iff Iff.rfl

theorem policiesAreSurvived_iff : PoliciesAreSurvived host document messages state ↔
    ∃ items, document = .array items ∧
      PoliciesSpeak host (items.map IpTablesPolicy.parse) state := by
  have start : (⟨0, [], [], (state, [])⟩ : Pass (σ × Log)).Reports False := by
    constructor <;> simp [FailedIn]
  constructor
  · rintro ⟨status, after, final, log, ran, rejected, -, reports⟩
    rw [moduleSetDefaultPolicies] at ran
    have isArray : ∃ items, document = .array items := by
      by_contra notArray
      rw [parseArray_of_ne (not_exists.mp notArray)] at ran
      have zero : (0 : ℤ) = status := congrArg Prod.fst (Except.ok.inj ran)
      exact rejected (not_exists.mp notArray) zero.symm
    obtain ⟨items, rfl⟩ := isArray
    refine ⟨items, rfl, ?_⟩
    cases passRan : setPoliciesFrom host.recorded (items.map IpTablesPolicy.parse) 0
        ⟨0, [], [], (state, [])⟩ with
    | error stop =>
        rw [parseArray, setDefaultPolicies, passRan] at ran
        cases ran
    | ok pass =>
        rw [parseArray, setDefaultPolicies, passRan] at ran
        obtain ⟨passStatus, passError, passErrors, passState⟩ := pass
        cases ran
        have errors_iff := reports.message
        rw [ne_eq, errorMessage_eq_nil_iff] at errors_iff
        refine (setPoliciesFrom_iff _ 0 start).mp ⟨_, passRan, ?_⟩
        rw [false_or]
        exact ⟨reports.status, errors_iff⟩
  · rintro ⟨items, rfl, speak⟩
    obtain ⟨pass, ran, reports⟩ :=
      (setPoliciesFrom_iff (items.map IpTablesPolicy.parse) 0 start).mpr speak
    simp only [false_or] at reports
    refine ⟨pass.status, { messages with policyStatusMessage := errorMessage pass.errors },
      pass.state.1, pass.state.2, ?_, fun notArray => absurd rfl (notArray items), rfl, ?_⟩
    · rw [moduleSetDefaultPolicies, parseArray, setDefaultPolicies, ran]
      rfl
    · refine reportsExactly_of_message reports.status ?_ or_comm
      rw [ne_eq, errorMessage_eq_nil_iff]
      exact reports.errors

/-- Requests survive every answer of the commands exactly if the document is an array, each command
that fails and changes something prints something, and each removal comes to an end. -/
theorem areSurvived_iff :
    (RulesAreSurvived host document messages state ↔
      ∃ items, document = .array items ∧
        ∃ final, SettlesAll host (items.map IpTablesRule.parse).reverse state final) ∧
    (PoliciesAreSurvived host document messages state ↔
      ∃ items, document = .array items ∧
        PoliciesSpeak host (items.map IpTablesPolicy.parse) state) :=
  ⟨rulesAreSurvived_iff, policiesAreSurvived_iff⟩

/-- A host whose commands all fail and print nothing. -/
def silentHost : Host Unit where
  execute _ _ := (⟨1, none⟩, ())

/-- A host where a rule is always found, and its removal always fails. -/
def stubbornHost : Host Unit where
  execute command _ := if isCheck command then (⟨0, none⟩, ()) else (⟨1, some (bytes "locked")⟩, ())

def ruleDocument (desiredState : ByteString) : Json :=
  .object [(desiredStateName, .string desiredState), (actionName, .string (bytes "accept")),
    (directionName, .string (bytes "in")), (protocolName, .string (bytes "tcp"))]

theorem parseError_ruleDocument {desiredState : ByteString} (mem : desiredState ∈ desiredStates) :
    (IpTablesRule.parse (ruleDocument desiredState)).parseError = [] := by
  rcases List.mem_pair.mp mem with rfl | rfl
  · decide +kernel
  · decide +kernel

theorem not_removes_stubbornHost {rule : IpTablesRule} {start final : Unit} :
    ¬ Removes stubbornHost rule start final := by
  intro removes
  induction removes with
  | gone _ absent => exact absent rfl
  | again _ _ _ _ _ ih => exact ih

/-- A document that is no array is not rejected, a command that fails silently stops a request, and a
rule that can not be removed keeps it running. -/
theorem areSurvived_not :
    ¬ RulesAreSurvived silentHost (.object []) ⟨[], []⟩ () ∧
    ¬ RulesAreSurvived silentHost (.array [ruleDocument (bytes "present")]) ⟨[], []⟩ () ∧
    ¬ RulesAreSurvived stubbornHost (.array [ruleDocument (bytes "absent")]) ⟨[], []⟩ () := by
  simp only [rulesAreSurvived_iff]
  refine ⟨?_, ?_, ?_⟩
  · rintro ⟨items, isArray, -⟩
    cases isArray
  · rintro ⟨items, isArray, final, settlesAll⟩
    cases isArray
    have mem : bytes "present" ∈ desiredStates := by decide
    have noError := parseError_ruleDocument mem
    cases settlesAll with
    | cons _ _ _ middle _ first _ =>
        cases first with
        | faulty error => exact error noError
        | there _ _ found => exact absurd found one_ne_zero
        | missing _ _ _ speaks => exact speaks one_ne_zero rfl
        | removed _ _ absent _ => exact absurd absent (by decide +kernel)
  · rintro ⟨items, isArray, final, settlesAll⟩
    cases isArray
    have mem : bytes "absent" ∈ desiredStates := by decide
    have noError := parseError_ruleDocument mem
    cases settlesAll with
    | cons _ _ _ middle _ first _ =>
        cases first with
        | faulty error => exact error noError
        | there _ present _ => exact absurd present (by decide +kernel)
        | missing _ present _ _ => exact absurd present (by decide +kernel)
        | removed _ _ _ removes => exact not_removes_stubbornHost removes

end Requests

end OsConfig.Firewall
