import OsConfig.ComplianceEngine.Engine

/-!
# The rule database over whole histories

A rule is in the database exactly if the last attempt to store its procedure
succeeded. What is stored is what that payload declares, except for the values of
the parameters: initialisation and remediation change values, never names.
-/

namespace OsConfig.ComplianceEngine

namespace ProcedureParameters

theorem mem_parseMembers {object members : JsonObject} {result parsed : ParameterMap}
    (ok : parseMembers object members result = .ok parsed) (name : ByteString) :
    name ∈ parsed ↔ name ∈ result ∨ name ∈ members.map Prod.fst := by
  induction members generalizing result with
  | nil =>
      simp only [parseMembers, Except.ok.injEq] at ok
      simp [ok]
  | cons member rest ih =>
      rcases member with ⟨key, value⟩
      rw [parseMembers] at ok
      cases read : JsonObject.getString object key with
      | none => simp [read] at ok
      | some text =>
          simp only [read] at ok
          rw [ih ok, Std.ExtTreeMap.mem_insertIfNew, Std.LawfulEqCmp.compare_eq_iff_eq]
          simp only [List.map_cons, List.mem_cons]
          constructor
          · rintro ((rfl | old) | later)
            · exact .inr (.inl rfl)
            · exact .inl old
            · exact .inr (.inr later)
          · rintro (old | rfl | later)
            · exact .inl (.inr old)
            · exact .inl (.inl rfl)
            · exact .inr later

end ProcedureParameters

namespace Procedure

/-- Updating parameters changes values, never names. -/
theorem mem_updateEntries (entries : List (ByteString × ByteString)) (parameters : ParameterMap)
    (name : ByteString) : name ∈ (updateEntries entries parameters).2 ↔ name ∈ parameters := by
  induction entries generalizing parameters with
  | nil => rfl
  | cons entry rest ih =>
      rcases entry with ⟨key, value⟩
      rw [updateEntries]
      split
      · rename_i known
        rw [ih, Std.ExtTreeMap.mem_insert, Std.LawfulEqCmp.compare_eq_iff_eq]
        constructor
        · rintro (rfl | old)
          · exact known
          · exact old
        · exact .inr
      · rfl

/-- The procedures differ at most in the values of their parameters. -/
structure SameDeclaration (before after : Procedure) : Prop where
  auditRule_eq : after.auditRule = before.auditRule
  remediationRule_eq : after.remediationRule = before.remediationRule
  mem_parameters : ∀ name, name ∈ after.parameters ↔ name ∈ before.parameters

theorem SameDeclaration.refl (procedure : Procedure) : SameDeclaration procedure procedure :=
  ⟨rfl, rfl, fun _ => Iff.rfl⟩

theorem sameDeclaration_updateUserParameters (jsonParse : JsonParser)
    (userParameters : ByteString) (procedure : Procedure) :
    SameDeclaration procedure (procedure.updateUserParameters jsonParse userParameters).2 := by
  rw [updateUserParameters]
  cases parseUserParameters jsonParse userParameters with
  | error failure => exact .refl procedure
  | ok pairs => exact ⟨rfl, rfl, mem_updateEntries pairs.toList procedure.parameters⟩

end Procedure

namespace Engine

open Procedure (SameDeclaration)

variable {σ : Type}

def declaredNames (object : JsonObject) : List ByteString :=
  match (JsonObject.getValue object (bytes "parameters")).bind JsonValue.getObject with
  | none => []
  | some members => members.map Prod.fst

/-- The procedure has the rules of the payload and the names of its parameters. -/
def Declares (jsonParse : JsonParser) (payload : ByteString) (procedure : Procedure) : Prop :=
  ∃ rule object, parsePayload jsonParse payload = .ok rule ∧ rule.getObject = some object ∧
    procedure.audit.isSome ∧
    procedure.auditRule = JsonObject.getValue object (bytes "audit") ∧
    procedure.remediationRule = JsonObject.getValue object (bytes "remediate") ∧
    ∀ name, name ∈ procedure.parameters ↔ name ∈ declaredNames object

theorem Declares.of_sameDeclaration {jsonParse : JsonParser} {payload : ByteString}
    {before after : Procedure} (declares : Declares jsonParse payload before)
    (same : SameDeclaration before after) : Declares jsonParse payload after := by
  rcases declares with ⟨rule, object, parsed, isObject, hasAudit, audit_eq, remediation_eq, names⟩
  refine ⟨rule, object, parsed, isObject, ?_, ?_, ?_, ?_⟩
  · rw [Procedure.audit, same.auditRule_eq]
    exact hasAudit
  · rw [same.auditRule_eq, audit_eq]
  · rw [same.remediationRule_eq, remediation_eq]
  · intro name
    rw [same.mem_parameters, names]

theorem readAudit_ok {object : JsonObject} {procedure : Procedure}
    (ok : readAudit object = .ok procedure) :
    procedure.audit.isSome ∧
    procedure.auditRule = JsonObject.getValue object (bytes "audit") ∧
    procedure.remediationRule = none ∧ procedure.parameters = ∅ := by
  rw [readAudit] at ok
  cases found : JsonObject.getValue object (bytes "audit") with
  | none => simp [found] at ok
  | some value =>
      cases isObject : value.getObject with
      | none => simp [found, isObject] at ok
      | some members =>
          simp only [found, isObject, Procedure.setAudit] at ok
          split at ok
          · simp at ok
          · rename_i hasAudit
            simp only [Except.ok.injEq] at ok
            subst ok
            refine ⟨by simpa [Option.isSome_iff_ne_none] using hasAudit, ?_, rfl, rfl⟩
            cases copied : value.deepCopy with
            | none => simp [Procedure.audit, copied] at hasAudit
            | some copy => rw [JsonValue.deepCopy_eq value copy copied]

theorem readRemediation_ok {object : JsonObject} {before procedure : Procedure}
    (unset : before.remediationRule = none)
    (ok : readRemediation object before = .ok procedure) :
    procedure.auditRule = before.auditRule ∧
    procedure.remediationRule = JsonObject.getValue object (bytes "remediate") ∧
    procedure.parameters = before.parameters := by
  rw [readRemediation] at ok
  cases found : JsonObject.getValue object (bytes "remediate") with
  | none =>
      simp only [found, Except.ok.injEq] at ok
      subst ok
      exact ⟨rfl, unset, rfl⟩
  | some value =>
      cases isObject : value.getObject with
      | none => simp [found, isObject] at ok
      | some members =>
          simp only [found, isObject, Procedure.setRemediation, unset] at ok
          split at ok
          · simp at ok
          · rename_i hasRemediation
            simp only [Except.ok.injEq] at ok
            subst ok
            refine ⟨rfl, ?_, rfl⟩
            cases copied : value.deepCopy with
            | none => simp [Procedure.remediation, copied] at hasRemediation
            | some copy => rw [JsonValue.deepCopy_eq value copy copied]

theorem readParameters_ok {object : JsonObject} {before procedure : Procedure}
    (unset : before.parameters = ∅) (ok : readParameters object before = .ok procedure) :
    procedure.auditRule = before.auditRule ∧
    procedure.remediationRule = before.remediationRule ∧
    ∀ name, name ∈ procedure.parameters ↔ name ∈ declaredNames object := by
  rw [readParameters] at ok
  rw [declaredNames]
  cases found : JsonObject.getValue object (bytes "parameters") with
  | none =>
      simp only [found, Except.ok.injEq] at ok
      subst ok
      exact ⟨rfl, rfl, fun name => by simp [unset]⟩
  | some value =>
      cases isObject : value.getObject with
      | none => simp [found, isObject] at ok
      | some members =>
          simp only [found, isObject] at ok
          cases parsed : ProcedureParameters.parseObject members with
          | error failure => simp [parsed] at ok
          | ok parameters =>
              simp only [parsed, Except.ok.injEq] at ok
              subst ok
              refine ⟨rfl, rfl, ?_⟩
              intro name
              have members_iff := ProcedureParameters.mem_parseMembers parsed name
              simpa [isObject] using members_iff

theorem readProcedure_declares {jsonParse : JsonParser} {payload : ByteString}
    {procedure : Procedure} (ok : readProcedure jsonParse payload = .ok procedure) :
    Declares jsonParse payload procedure := by
  rw [readProcedure] at ok
  cases parsed : parsePayload jsonParse payload with
  | error failure => simp [parsed] at ok
  | ok rule =>
      cases isObject : rule.getObject with
      | none => simp [parsed, isObject] at ok
      | some object =>
          cases audited : readAudit object with
          | error failure => simp [parsed, isObject, audited] at ok
          | ok first =>
              cases remediated : readRemediation object first with
              | error failure => simp [parsed, isObject, audited, remediated] at ok
              | ok second =>
                  simp only [parsed, isObject, audited, remediated] at ok
                  rcases readAudit_ok audited with
                    ⟨hasAudit, audit_eq, no_remediation, no_parameters⟩
                  rcases readRemediation_ok no_remediation remediated with
                    ⟨audit_eq', remediation_eq, parameters_eq⟩
                  rcases readParameters_ok (parameters_eq.trans no_parameters) ok with
                    ⟨audit_eq'', remediation_eq', names⟩
                  refine ⟨rule, object, parsed, isObject, ?_, ?_, ?_, names⟩
                  · rw [Procedure.audit, audit_eq'', audit_eq']
                    exact hasAudit
                  · rw [audit_eq'', audit_eq', audit_eq]
                  · rw [remediation_eq', remediation_eq]

def Call.ruleName (call : Call) : Option ByteString :=
  match call with
  | .set (some objectName) _ =>
      if ByteString.startsWith objectName procedurePrefix then
        some (objectName.drop procedurePrefix.length)
      else if ByteString.startsWith objectName initPrefix then
        some (objectName.drop initPrefix.length)
      else if ByteString.startsWith objectName remediatePrefix then
        some (objectName.drop remediatePrefix.length)
      else none
  | .get (some objectName) =>
      if ByteString.startsWith objectName auditPrefix then
        some (objectName.drop auditPrefix.length)
      else none
  | _ => none

/-- The last payload and outcome of a call on the procedure object of a rule, after one more
entry of the log. -/
def noteCall (ruleName : ByteString) (last : Option (ByteString × Outcome Status))
    (entry : Call × Answer) : Option (ByteString × Outcome Status) :=
  match entry with
  | (.set (some objectName) payload, .set outcome) =>
      if objectName = procedurePrefix ++ ruleName then some (payload, outcome) else last
  | _ => last

/-- The payload and the outcome of the most recent `MmiSet` on the procedure object of a rule. -/
def lastProcedureSet (ruleName : ByteString) (log : List (Call × Answer)) :
    Option (ByteString × Outcome Status) :=
  log.foldl (noteCall ruleName) none

theorem startsWith_iff (text start : ByteString) :
    ByteString.startsWith text start = true ↔ text = start ++ text.drop start.length := by
  rw [ByteString.startsWith, List.isPrefixOf_iff_prefix]
  exact List.prefix_iff_eq_append.trans eq_comm

section Step

variable {setup : EngineSetup σ} {engine : Engine σ} {payload : ByteString}

/-- Storing a procedure concerns its own rule only. -/
theorem setProcedure_other {name ruleName : ByteString} (other : name ≠ ruleName) :
    (engine.setProcedure setup name payload).2.database[ruleName]? =
      engine.database[ruleName]? := by
  rw [setProcedure]
  split
  · rfl
  · cases readProcedure setup.jsonParse payload with
    | error failure => simp [Std.ExtTreeMap.getElem?_erase, other]
    | ok procedure =>
        simp [Std.ExtTreeMap.getElem?_insert, Std.ExtTreeMap.getElem?_erase, other]

/-- Initialisation and remediation keep the declaration of their rule and nothing else. -/
theorem insert_updated {name ruleName : ByteString} {before procedure : Procedure}
    (found : engine.database[name]? = some procedure)
    (stored : engine.database[ruleName]? = some before) :
    ∃ after, (engine.database.insert name
        (procedure.updateUserParameters setup.jsonParse payload).2)[ruleName]? = some after ∧
      SameDeclaration before after := by
  rw [Std.ExtTreeMap.getElem?_insert]
  split
  · rename_i same
    obtain rfl : name = ruleName := Std.LawfulEqCmp.eq_of_compare same
    rw [found, Option.some.injEq] at stored
    subst stored
    exact ⟨_, rfl, Procedure.sameDeclaration_updateUserParameters _ _ _⟩
  · exact ⟨before, stored, .refl before⟩

theorem insert_updated_absent {name ruleName : ByteString} {procedure updated : Procedure}
    (found : engine.database[name]? = some procedure)
    (absent : engine.database[ruleName]? = none) :
    (engine.database.insert name updated)[ruleName]? = none := by
  rw [Std.ExtTreeMap.getElem?_insert]
  split
  · rename_i same
    obtain rfl : name = ruleName := Std.LawfulEqCmp.eq_of_compare same
    rw [found] at absent
    simp at absent
  · exact absent

/-- The entry of a rule after a call that does not store a procedure for it: still absent, or
still there with the same declaration; unchanged when the call is about another rule. -/
structure Kept (engine engine' : Engine σ) (name : ByteString) : Prop where
  present : ∀ (ruleName : ByteString) (before : Procedure),
    engine.database[ruleName]? = some before →
    ∃ after, engine'.database[ruleName]? = some after ∧ SameDeclaration before after
  absent : ∀ ruleName : ByteString,
    engine.database[ruleName]? = none → engine'.database[ruleName]? = none
  other : ∀ ruleName : ByteString, name ≠ ruleName →
    engine'.database[ruleName]? = engine.database[ruleName]?

theorem Kept.of_database_eq {engine' : Engine σ} (name : ByteString)
    (same : engine'.database = engine.database) : Kept engine engine' name := by
  refine ⟨?_, ?_, ?_⟩
  · intro ruleName before stored
    exact ⟨before, by rw [same, stored], .refl before⟩
  · intro ruleName absent
    rw [same, absent]
  · intro ruleName _
    rw [same]

theorem Kept.of_insert {engine' : Engine σ} {name : ByteString} {procedure : Procedure}
    (found : engine.database[name]? = some procedure)
    (inserted : engine'.database = engine.database.insert name
      (procedure.updateUserParameters setup.jsonParse payload).2) : Kept engine engine' name := by
  refine ⟨?_, ?_, ?_⟩
  · intro ruleName before stored
    rw [inserted]
    exact insert_updated found stored
  · intro ruleName absent
    rw [inserted]
    exact insert_updated_absent found absent
  · intro ruleName different
    rw [inserted]
    simp [Std.ExtTreeMap.getElem?_insert, different]

theorem initAudit_kept (setup : EngineSetup σ) (name payload : ByteString) (engine : Engine σ) :
    Kept engine (engine.initAudit setup name payload).2 name := by
  rw [initAudit]
  split
  · exact .of_database_eq name rfl
  · cases found : engine.database[name]? with
    | none => exact .of_database_eq name rfl
    | some procedure =>
        simp only
        split
        · exact .of_insert found rfl
        · exact .of_insert found rfl

theorem executeRemediation_kept (setup : EngineSetup σ) (name payload : ByteString)
    (engine : Engine σ) :
    Kept engine (engine.executeRemediation setup name payload).2 name := by
  rw [executeRemediation]
  split
  · exact .of_database_eq name rfl
  · cases found : engine.database[name]? with
    | none => exact .of_database_eq name rfl
    | some procedure =>
        simp only
        split
        · exact .of_database_eq name rfl
        · split
          · exact .of_insert found rfl
          · exact .of_insert found rfl

/-- `MmiGet` never changes the database. -/
theorem database_mmiGet (objectName : Option ByteString) :
    (engine.mmiGet setup objectName).2.database = engine.database := by
  cases objectName with
  | none => rfl
  | some objectName =>
      simp only [mmiGet]
      split
      · rfl
      · split
        · rfl
        · split
          · rfl
          · split <;> rfl

/-- What one call does to the entries, in terms of the object it is made on. -/
theorem step_kept (setup : EngineSetup σ) (engine : Engine σ) (call : Call) (name : ByteString)
    (notProcedure : ∀ payload, call ≠ .set (some (procedurePrefix ++ name)) payload) :
    (∀ before, engine.database[name]? = some before →
      ∃ after, (engine.step setup call).2.database[name]? = some after ∧
        SameDeclaration before after) ∧
    (engine.database[name]? = none → (engine.step setup call).2.database[name]? = none) ∧
    (call.ruleName ≠ some name →
      (engine.step setup call).2.database[name]? = engine.database[name]?) := by
  have unchanged : (engine.step setup call).2.database[name]? = engine.database[name]? →
      (∀ before, engine.database[name]? = some before →
        ∃ after, (engine.step setup call).2.database[name]? = some after ∧
          SameDeclaration before after) ∧
      (engine.database[name]? = none → (engine.step setup call).2.database[name]? = none) ∧
      (call.ruleName ≠ some name →
        (engine.step setup call).2.database[name]? = engine.database[name]?) := by
    intro same
    refine ⟨?_, ?_, fun _ => same⟩
    · intro before stored
      exact ⟨before, same.trans stored, .refl before⟩
    · intro absent
      exact same.trans absent
  cases call with
  | get objectName =>
      apply unchanged
      rw [step, database_mmiGet]
  | set objectName payload =>
      cases objectName with
      | none =>
          apply unchanged
          rfl
      | some objectName =>
          by_cases isProcedure : ByteString.startsWith objectName procedurePrefix = true
          · apply unchanged
            simp only [step, mmiSet, if_pos isProcedure]
            apply setProcedure_other
            rintro rfl
            apply notProcedure payload
            rw [← (startsWith_iff _ _).mp isProcedure]
          · by_cases isInit : ByteString.startsWith objectName initPrefix = true
            · have kept := initAudit_kept setup (objectName.drop initPrefix.length) payload engine
              simp only [step, mmiSet, if_neg isProcedure, if_pos isInit, Call.ruleName]
              exact ⟨kept.present name, kept.absent name,
                fun different => kept.other name (by simpa using different)⟩
            · by_cases isRemediate : ByteString.startsWith objectName remediatePrefix = true
              · have kept := executeRemediation_kept setup
                  (objectName.drop remediatePrefix.length) payload engine
                simp only [step, mmiSet, if_neg isProcedure, if_neg isInit, if_pos isRemediate,
                  Call.ruleName]
                exact ⟨kept.present name, kept.absent name,
                  fun different => kept.other name (by simpa using different)⟩
              · apply unchanged
                simp only [step, mmiSet, if_neg isProcedure, if_neg isInit, if_neg isRemediate]

theorem step_procedure (ruleName : ByteString) :
    engine.step setup (.set (some (procedurePrefix ++ ruleName)) payload) =
      (.set (engine.setProcedure setup ruleName payload).1,
        (engine.setProcedure setup ruleName payload).2) := by
  have dispatched : ByteString.startsWith (procedurePrefix ++ ruleName) procedurePrefix = true := by
    rw [startsWith_iff, List.drop_left]
  simp only [step, mmiSet, if_pos dispatched, List.drop_left]

/-- The database agrees with the last attempt to store the procedure of a rule. -/
def Consistent (setup : EngineSetup σ) (ruleName : ByteString)
    (last : Option (ByteString × Outcome Status)) (engine : Engine σ) : Prop :=
  match last with
  | some (payload, .value _) =>
      ∃ procedure, engine.database[ruleName]? = some procedure ∧
        Declares setup.jsonParse payload procedure
  | _ => engine.database[ruleName]? = none

theorem consistent_of_absent {ruleName : ByteString}
    {last : Option (ByteString × Outcome Status)}
    (failed : ∀ payload status, last ≠ some (payload, .value status))
    (absent : engine.database[ruleName]? = none) : Consistent setup ruleName last engine := by
  rcases last with _ | ⟨payload, outcome⟩
  · exact absent
  · cases outcome with
    | value status => exact absurd rfl (failed payload status)
    | error failure => exact absent
    | thrown what => exact absent
    | aborted => exact absent

theorem absent_of_consistent {ruleName : ByteString}
    {last : Option (ByteString × Outcome Status)}
    (failed : ∀ payload status, last ≠ some (payload, .value status))
    (consistent : Consistent setup ruleName last engine) :
    engine.database[ruleName]? = none := by
  rcases last with _ | ⟨payload, outcome⟩
  · exact consistent
  · cases outcome with
    | value status => exact absurd rfl (failed payload status)
    | error failure => exact consistent
    | thrown what => exact consistent
    | aborted => exact consistent

theorem setProcedure_consistent {ruleName : ByteString}
    (noEmptyName : engine.database[([] : ByteString)]? = none) :
    Consistent setup ruleName (some (payload, (engine.setProcedure setup ruleName payload).1))
      (engine.setProcedure setup ruleName payload).2 := by
  rw [setProcedure]
  split
  · rename_i isEmpty
    subst isEmpty
    exact noEmptyName
  · cases read : readProcedure setup.jsonParse payload with
    | error failure =>
        change (engine.database.erase ruleName)[ruleName]? = none
        simp
    | ok procedure =>
        refine ⟨procedure, ?_, readProcedure_declares read⟩
        simp

theorem step_consistent {ruleName : ByteString} {last : Option (ByteString × Outcome Status)}
    (call : Call) (noEmptyName : engine.database[([] : ByteString)]? = none)
    (consistent : Consistent setup ruleName last engine) :
    Consistent setup ruleName (noteCall ruleName last (call, (engine.step setup call).1))
      (engine.step setup call).2 ∧
    (engine.step setup call).2.database[([] : ByteString)]? = none := by
  constructor
  · by_cases isProcedure : ∃ payload, call = .set (some (procedurePrefix ++ ruleName)) payload
    · rcases isProcedure with ⟨payload, rfl⟩
      rw [step_procedure]
      simp only [noteCall, if_true]
      exact setProcedure_consistent noEmptyName
    · have notProcedure : ∀ payload, call ≠ .set (some (procedurePrefix ++ ruleName)) payload :=
        fun payload call_eq => isProcedure ⟨payload, call_eq⟩
      have unnoted : noteCall ruleName last (call, (engine.step setup call).1) = last := by
        cases call with
        | get objectName => cases objectName <;> rfl
        | set objectName payload =>
            cases objectName with
            | none => rfl
            | some objectName =>
                simp only [noteCall, step]
                rw [if_neg]
                rintro rfl
                exact notProcedure payload rfl
      rcases step_kept setup engine call ruleName notProcedure with
        ⟨present, absent, -⟩
      rw [unnoted]
      by_cases stored : ∃ payload status, last = some (payload, .value status)
      · rcases stored with ⟨payload, status, rfl⟩
        rcases consistent with ⟨before, before_eq, declares⟩
        rcases present before before_eq with ⟨after, after_eq, same⟩
        exact ⟨after, after_eq, declares.of_sameDeclaration same⟩
      · have failed : ∀ payload status, last ≠ some (payload, .value status) :=
          fun payload status last_eq => stored ⟨payload, status, last_eq⟩
        exact consistent_of_absent failed (absent (absent_of_consistent failed consistent))
  · by_cases isProcedure : ∃ payload, call = .set (some (procedurePrefix ++ [])) payload
    · rcases isProcedure with ⟨payload, rfl⟩
      rw [step_procedure, setProcedure, if_pos rfl]
      exact noEmptyName
    · exact (step_kept setup engine call [] fun payload call_eq =>
        isProcedure ⟨payload, call_eq⟩).2.1
        noEmptyName

theorem run_consistent {ruleName : ByteString} {last : Option (ByteString × Outcome Status)}
    (calls : List Call) (noEmptyName : engine.database[([] : ByteString)]? = none)
    (consistent : Consistent setup ruleName last engine) :
    Consistent setup ruleName ((engine.run setup calls).1.foldl (noteCall ruleName) last)
      (engine.run setup calls).2 := by
  induction calls generalizing engine last with
  | nil => exact consistent
  | cons call rest ih =>
      rcases step_consistent call noEmptyName consistent with ⟨consistent', noEmptyName'⟩
      exact ih noEmptyName' consistent'

end Step

/-- The rule database after any history of calls. A rule is present exactly if the last attempt
to store its procedure succeeded, and then with the rules and the parameter names of that
payload. Calls about other rules and audits leave its entry alone. -/
theorem run_database (setup : EngineSetup σ) (context : σ) (calls : List Call)
    (ruleName : ByteString) :
    (ruleName ∈ (run setup calls { context }).2.database ↔
      ∃ payload status, lastProcedureSet ruleName (run setup calls { context }).1 =
        some (payload, .value status)) ∧
    (∀ payload status, lastProcedureSet ruleName (run setup calls { context }).1 =
        some (payload, .value status) →
      ∃ procedure, (run setup calls { context }).2.database[ruleName]? = some procedure ∧
        Declares setup.jsonParse payload procedure) ∧
    (∀ call, call.ruleName ≠ some ruleName →
      (step setup call (run setup calls { context }).2).2.database[ruleName]? =
        (run setup calls { context }).2.database[ruleName]?) ∧
    ∀ objectName, (mmiGet setup objectName (run setup calls { context }).2).2.database =
      (run setup calls { context }).2.database := by
  have consistent : Consistent setup ruleName
      (lastProcedureSet ruleName (run setup calls { context }).1)
      (run setup calls { context }).2 := by
    apply run_consistent calls
    · rfl
    · exact rfl
  refine ⟨?_, ?_, ?_, fun objectName => database_mmiGet objectName⟩
  · constructor
    · intro stored
      by_contra failed
      push Not at failed
      have absent := absent_of_consistent failed consistent
      rw [← Std.ExtTreeMap.isSome_getElem?_iff_mem, absent] at stored
      simp at stored
    · rintro ⟨payload, status, last_eq⟩
      rw [last_eq] at consistent
      rcases consistent with ⟨procedure, stored, -⟩
      rw [← Std.ExtTreeMap.isSome_getElem?_iff_mem, stored]
      rfl
  · intro payload status last_eq
    rw [last_eq] at consistent
    exact consistent
  · intro call different
    apply (step_kept setup _ call ruleName ?_).2.2 different
    rintro payload rfl
    apply different
    have dispatched :
        ByteString.startsWith (procedurePrefix ++ ruleName) procedurePrefix = true := by
      rw [startsWith_iff, List.drop_left]
    simp only [Call.ruleName, if_pos dispatched, List.drop_left]

end Engine

end OsConfig.ComplianceEngine
