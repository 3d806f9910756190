import OsConfig.ComplianceEngine.Engine
import OsConfig.ComplianceEngine.Procedure.UserParameters

/-!
# Failed updates of user parameters

`UpdateUserParameters` writes the pairs of the user one after the other and
returns at the first key that the procedure does not declare. The pairs before
that key are written already, and neither the update nor the engine takes them
back. So a failed update leaves the parameters alone only if these pairs say
what the parameters were.
-/

namespace OsConfig.ComplianceEngine

namespace Procedure

/-- The pairs in front of the first undeclared key. -/
def declaredFront (parameters : ParameterMap) (entries : List (ByteString × ByteString)) :
    List (ByteString × ByteString) :=
  entries.takeWhile fun entry => decide (entry.1 ∈ parameters)

theorem updateEntries_insert_declared {key : ByteString} {parameters : ParameterMap}
    (declared : key ∈ parameters) (value other : ByteString) :
    other ∈ parameters.insert key value ↔ other ∈ parameters := by
  rw [Std.ExtTreeMap.mem_insert]
  constructor
  · rintro (same | before)
    · rwa [← Std.LawfulEqCmp.eq_of_compare same]
    · exact before
  · exact .inr

/-- The update fails exactly if some key is undeclared. -/
theorem updateEntries_eq_none_iff (entries : List (ByteString × ByteString))
    (parameters : ParameterMap) :
    (updateEntries entries parameters).1 = none ↔ ∀ entry ∈ entries, entry.1 ∈ parameters := by
  induction entries generalizing parameters with
  | nil => simp [updateEntries]
  | cons entry rest ih =>
      rcases entry with ⟨key, value⟩
      by_cases declared : key ∈ parameters
      · rw [updateEntries, if_pos declared, ih]
        simp [declared, updateEntries_insert_declared declared]
      · simp [updateEntries, declared]

/-- The update writes the pairs in front of the first undeclared key. -/
theorem updateEntries_declaredFront (entries : List (ByteString × ByteString))
    (parameters : ParameterMap) :
    updateEntries (declaredFront parameters entries) parameters =
      (none, (updateEntries entries parameters).2) := by
  induction entries generalizing parameters with
  | nil => rfl
  | cons entry rest ih =>
      rcases entry with ⟨key, value⟩
      by_cases declared : key ∈ parameters
      · have front : declaredFront parameters ((key, value) :: rest) =
            (key, value) :: declaredFront (parameters.insert key value) rest := by
          simp [declaredFront, declared, updateEntries_insert_declared declared]
        rw [front, updateEntries, updateEntries, if_pos declared, if_pos declared, ih]
      · simp [declaredFront, updateEntries, declared]

/-- Pairs with distinct keys leave the parameters as they are exactly if the pairs in front of
the first undeclared key are there already. -/
theorem updateEntries_unchanged_iff {entries : List (ByteString × ByteString)}
    (distinct : entries.Pairwise fun first second => first.1 ≠ second.1)
    (parameters : ParameterMap) :
    (updateEntries entries parameters).2 = parameters ↔
      ∀ entry ∈ declaredFront parameters entries, parameters[entry.1]? = some entry.2 := by
  have front_distinct : (declaredFront parameters entries).Pairwise
      fun first second => first.1 ≠ second.1 :=
    distinct.sublist (List.takeWhile_sublist _)
  have front_declared : ∀ entry ∈ declaredFront parameters entries, entry.1 ∈ parameters := by
    intro entry mem
    have taken := List.mem_takeWhile_imp mem
    exact of_decide_eq_true taken
  rcases updateEntries_declared front_declared front_distinct with
    ⟨updated, updated_eq, sets, keeps⟩
  rw [updateEntries_declaredFront, Prod.mk.injEq] at updated_eq
  rw [updated_eq.2]
  constructor
  · rintro rfl
    exact sets
  · intro already
    apply Std.ExtTreeMap.ext_getElem?
    intro key
    by_cases written : ∀ entry ∈ declaredFront parameters entries, entry.1 ≠ key
    · exact keeps key written
    · push Not at written
      rcases written with ⟨entry, mem, rfl⟩
      rw [sets entry mem, already entry mem]

/-- Where the text of the user is read, its keys are declared or the pairs in front of the
first undeclared key are what the procedure has already. -/
def WritesNothingNew (jsonParse : JsonParser) (userParameters : ByteString)
    (procedure : Procedure) : Prop :=
  ∀ pairs, parseUserParameters jsonParse userParameters = .ok pairs →
    (∀ entry ∈ pairs.toList, entry.1 ∈ procedure.parameters) ∨
      ∀ entry ∈ declaredFront procedure.parameters pairs.toList,
        procedure.parameters[entry.1]? = some entry.2

theorem updateUserParameters_unchanged_iff (jsonParse : JsonParser) (userParameters : ByteString)
    (procedure : Procedure) :
    (∀ failure, (updateUserParameters jsonParse userParameters procedure).1 = some failure →
      (updateUserParameters jsonParse userParameters procedure).2.parameters =
        procedure.parameters) ↔
      WritesNothingNew jsonParse userParameters procedure := by
  rw [WritesNothingNew, updateUserParameters]
  cases parsed : parseUserParameters jsonParse userParameters with
  | error failure => simp
  | ok pairs =>
      have fails := updateEntries_eq_none_iff pairs.toList procedure.parameters
      have unchanged := updateEntries_unchanged_iff (ProcedureParameters.distinct_keys pairs)
        procedure.parameters
      simp only [Except.ok.injEq, forall_eq']
      rw [← fails, ← unchanged]
      cases (updateEntries pairs.toList procedure.parameters).1 with
      | none => simp
      | some failure => simp

end Procedure

namespace Engine

variable {σ : Type}

def storedParameters (ruleName : ByteString) (engine : Engine σ) : Option ParameterMap :=
  engine.database[ruleName]?.map (·.parameters)

theorem storedParameters_eq {ruleName : ByteString} {engine : Engine σ} {procedure : Procedure}
    (stored : engine.database[ruleName]? = some procedure) :
    engine.storedParameters ruleName = some procedure.parameters := by
  rw [storedParameters, stored]
  rfl

theorem storedParameters_insert (ruleName : ByteString) (engine : Engine σ)
    (procedure : Procedure) :
    storedParameters ruleName
        { engine with database := engine.database.insert ruleName procedure } =
      some procedure.parameters := by
  apply storedParameters_eq
  exact Std.ExtTreeMap.getElem?_insert_self

/-- The stored parameters after `InitAudit` are those of the update, or those before. -/
theorem initAudit_storedParameters (setup : EngineSetup σ) {engine : Engine σ}
    {ruleName : ByteString} {procedure : Procedure} (userParameters : ByteString)
    (stored : engine.database[ruleName]? = some procedure) :
    (engine.initAudit setup ruleName userParameters).2.storedParameters ruleName =
        some procedure.parameters ∨
      (engine.initAudit setup ruleName userParameters).1 =
          ((procedure.updateUserParameters setup.jsonParse userParameters).1.elim
            (.value .compliant) .error) ∧
        (engine.initAudit setup ruleName userParameters).2.storedParameters ruleName =
          some (procedure.updateUserParameters setup.jsonParse userParameters).2.parameters := by
  rw [initAudit, stored]
  split
  · exact .inl (storedParameters_eq stored)
  · right
    dsimp only
    cases (procedure.updateUserParameters setup.jsonParse userParameters).1 with
    | none => exact ⟨rfl, storedParameters_insert ..⟩
    | some failure => exact ⟨rfl, storedParameters_insert ..⟩

theorem executeRemediation_storedParameters (setup : EngineSetup σ) {engine : Engine σ}
    {ruleName : ByteString} {procedure : Procedure} {userParameters : ByteString}
    {failure : Error} (stored : engine.database[ruleName]? = some procedure)
    (fails : (procedure.updateUserParameters setup.jsonParse userParameters).1 = some failure) :
    (∃ failure', (engine.executeRemediation setup ruleName userParameters).1 = .error failure') ∧
      ((engine.executeRemediation setup ruleName userParameters).2.storedParameters ruleName =
          some procedure.parameters ∨
        (engine.executeRemediation setup ruleName userParameters).2.storedParameters ruleName =
          some (procedure.updateUserParameters setup.jsonParse userParameters).2.parameters) := by
  rw [executeRemediation, stored]
  split
  · exact ⟨⟨_, rfl⟩, .inl (storedParameters_eq stored)⟩
  · dsimp only
    cases procedure.remediation.or procedure.audit with
    | none => exact ⟨⟨_, rfl⟩, .inl (storedParameters_eq stored)⟩
    | some rule =>
        simp only [fails]
        exact ⟨⟨_, rfl⟩, .inr (storedParameters_insert ..)⟩

end Engine

/-- A failed update leaves the parameters of the procedure alone, also where it is a part of
`InitAudit` or `ExecuteRemediation`. -/
structure AtomicUpdate (σ : Type) (jsonParse : JsonParser) (userParameters : ByteString)
    (procedure : Procedure) : Prop where
  update : ∀ failure,
    (procedure.updateUserParameters jsonParse userParameters).1 = some failure →
      (procedure.updateUserParameters jsonParse userParameters).2.parameters =
        procedure.parameters
  initAudit : ∀ (setup : EngineSetup σ) (engine : Engine σ) (ruleName : ByteString) (failure : Error),
    setup.jsonParse = jsonParse → engine.database[ruleName]? = some procedure →
      (engine.initAudit setup ruleName userParameters).1 = .error failure →
      (engine.initAudit setup ruleName userParameters).2.storedParameters ruleName =
        some procedure.parameters
  executeRemediation : ∀ (setup : EngineSetup σ) (engine : Engine σ) (ruleName : ByteString)
      (failure : Error),
    setup.jsonParse = jsonParse → engine.database[ruleName]? = some procedure →
      (procedure.updateUserParameters jsonParse userParameters).1 = some failure →
      (∃ failure', (engine.executeRemediation setup ruleName userParameters).1 = .error failure') ∧
        (engine.executeRemediation setup ruleName userParameters).2.storedParameters ruleName =
          some procedure.parameters

/-- User parameters are updated atomically exactly where a failing update writes nothing new. -/
theorem atomicUpdate_iff (σ : Type) (jsonParse : JsonParser) (userParameters : ByteString)
    (procedure : Procedure) :
    AtomicUpdate σ jsonParse userParameters procedure ↔
      procedure.WritesNothingNew jsonParse userParameters := by
  rw [← Procedure.updateUserParameters_unchanged_iff]
  refine ⟨fun atomic => atomic.update, fun unchanged => ⟨unchanged, ?_, ?_⟩⟩
  · rintro setup engine ruleName failure rfl stored failed
    rcases engine.initAudit_storedParameters setup userParameters stored with
      before | ⟨answer, after⟩
    · exact before
    · rw [failed] at answer
      cases updated : (procedure.updateUserParameters setup.jsonParse userParameters).1 with
      | none => simp [updated] at answer
      | some failure' => rw [after, unchanged failure' updated]
  · rintro setup engine ruleName failure rfl stored fails
    rcases Engine.executeRemediation_storedParameters setup stored fails with
      ⟨failed, before | after⟩
    · exact ⟨failed, before⟩
    · exact ⟨failed, by rw [after, unchanged failure fails]⟩

/-- The update with `a=1 b=2` of a procedure that declares `a` fails and sets `a`. -/
theorem updateUserParameters_not_atomic :
    ∃ failure,
      ((Procedure.declaring (bytes "a") (bytes "0")).updateUserParameters
          (JsonValue.parseString fun _ => none) (bytes "a=1 b=2")).1 = some failure ∧
        ((Procedure.declaring (bytes "a") (bytes "0")).updateUserParameters
          (JsonValue.parseString fun _ => none) (bytes "a=1 b=2")).2.parameters[bytes "a"]? ≠
            (Procedure.declaring (bytes "a") (bytes "0")).parameters[bytes "a"]? := by
  refine ⟨{ message := bytes "User parameter 'b' not found" }, ?_, ?_⟩
  · decide
  · decide

end OsConfig.ComplianceEngine
