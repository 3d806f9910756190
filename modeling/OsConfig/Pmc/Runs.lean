import OsConfig.Pmc.Requests

/-!
# Repeated requests

A request with the payload that the machine was brought to last is answered without doing anything.
That answer is right as long as such requests are for the desired state, and the execution state was
not overwritten by the refusal of a payload that was too large. Nothing else keeps the hash of the
payload while it changes what is reported.
-/

namespace OsConfig.Pmc

/-- A request that was answered. -/
structure Entry where
  machine : Machine
  request : Request
  outcome : PmcBase.Outcome

/-- The module after some requests, the last of which comes first. -/
structure PmcRun where
  pmc : PmcBase
  history : List Entry

namespace PmcRun

variable (libraries : Libraries)

/-- The module as it is constructed. -/
def initial (maxPayloadSizeBytes : BitVec 32) (sourcesConfigurationDirectory : ByteString) :
    PmcRun where
  pmc := ⟨maxPayloadSizeBytes, sourcesConfigurationDirectory, .initial, 0⟩
  history := []

/-- The next request and how its operations end. -/
def next (run : PmcRun) (call : Machine × Request) : PmcRun :=
  let outcome := run.pmc.set libraries call.1 call.2
  ⟨outcome.pmc, ⟨call.1, call.2, outcome⟩ :: run.history⟩

/-- The module after a sequence of requests. -/
def after (run : PmcRun) (calls : List (Machine × Request)) : PmcRun :=
  calls.foldl (next libraries) run

end PmcRun

/-- The request brought the machine to the payload. -/
structure Entry.Brings (entry : Entry) (payload : ByteString) : Prop where
  payload : entry.request.payload = payload
  status : entry.outcome.status = mmiOk
  steps : entry.outcome.steps ≠ []

/-- The machine was brought to the payload, and no request has changed anything since. -/
def StaysAt (history : List Entry) (payload : ByteString) : Prop :=
  ∃ since reached before, history = since ++ reached :: before ∧ reached.Brings payload ∧
    ∀ entry ∈ since, entry.outcome.steps = []

def Request.IsAddressed (request : Request) : Prop :=
  request.componentName = Pmc.componentName ∧ request.objectName = desiredObjectName

/-- What an answer of `MMI_OK` promises. -/
def AnswersSoundly (libraries : Libraries) (run : PmcRun) (call : Machine × Request) : Prop :=
  (run.pmc.set libraries call.1 call.2).status = mmiOk →
    call.2.IsAddressed ∧
    (run.next libraries call).pmc.executionState.stateComponent = .succeeded ∧
    (run.next libraries call).pmc.executionState.substateComponent = .none ∧
    StaysAt (run.next libraries call).history call.2.payload

/-- The requests since the last one that carried something out. -/
def idleSince (history : List Entry) : List Entry :=
  history.takeWhile fun entry => entry.outcome.steps = []

/-- If the payload is the one reached last, the request is for the desired state, and no other
payload has been too large since. -/
def RepeatsSafely (run : PmcRun) (call : Machine × Request) : Prop :=
  call.1.canRunOnThisPlatform = true →
    hashString call.2.payload = run.pmc.lastReachedStateHash →
      call.2.IsAddressed ∧
        ∀ entry ∈ idleSince run.history, entry.machine.canRunOnThisPlatform = true →
          run.pmc.isTooLarge entry.request = true → entry.request.payload = call.2.payload

section Outcomes

variable {libraries : Libraries} {machine : Machine} {pmc : PmcBase} {request : Request}

theorem carryOut_ended {desiredState : DesiredState} {progress : Progress}
    (successful : progress.isSuccessful = true) :
    let result := pmc.carryOut libraries machine desiredState progress
    result.2.isSuccessful = true ∧ result.2.executionState = ⟨.succeeded, .none, []⟩ ∨
      result.2.isSuccessful = false ∧ result.1 ≠ 0 := by
  by_cases last : (keyTrial libraries machine desiredState progress.steps.length).getLast? =
      some false
  · rcases @carryOut_of_last_key_failed libraries machine pmc _ _ last with ⟨failed, nonzero, -⟩
    exact .inr ⟨failed, nonzero⟩
  by_cases stops : true ∈ stopTrial libraries machine pmc desiredState
      (sourceNumber desiredState progress)
  · rcases carryOut_of_source_stops successful last stops with ⟨failed, nonzero, -⟩
    exact .inr ⟨failed, nonzero⟩
  · rcases carryOut_finishes successful last stops with ⟨tail, finishes⟩
    rcases finishes.ended with ⟨done, state, -⟩ | ⟨failed, nonzero, -⟩
    · exact .inl ⟨done, state⟩
    · exact .inr ⟨failed, nonzero⟩

/-- A payload that is processed either brings the machine to it, or fails with an error. -/
theorem process_ended (progress : Progress) :
    let processed := pmc.process libraries machine request progress
    processed.2.isSuccessful = true ∧ request.IsAddressed ∧
        processed.2.executionState = ⟨.succeeded, .none, []⟩ ∧ processed.2.steps ≠ [] ∨
      processed.2.isSuccessful = false ∧ processed.1 ≠ 0 := by
  by_cases parsed : ∃ document,
      libraries.parse request.payload request.payloadSizeBytes = some (.object document)
  · rcases parsed with ⟨document, parsed⟩
    rw [PmcBase.process, parsed]
    dsimp only
    split
    · exact .inr ⟨rfl, (by decide : einval ≠ 0)⟩
    next component =>
      split
      · exact .inr ⟨rfl, (by decide : einval ≠ 0)⟩
      next object =>
        rw [not_not] at component object
        rcases @bringAbout_spec libraries machine pmc document progress with
          ⟨-, failed, nonzero, -⟩ | ⟨-, validated, brought, successful, -⟩
        · exact .inr ⟨failed, nonzero⟩
        · rw [brought]
          rcases @carryOut_ended libraries machine pmc (readDesiredState document) _ successful with
            ⟨done, state⟩ | failed
          · exact .inl ⟨done, ⟨component, object⟩, state, carryOut_steps_ne_nil successful⟩
          · exact .inr failed
  · rcases @process_of_not_object libraries machine pmc request progress
      (not_exists.mp parsed) with ⟨failed, nonzero, -⟩
    exact .inr ⟨failed, nonzero⟩

/-- What `Set` can do. -/
inductive SetCases (libraries : Libraries) (machine : Machine) (pmc : PmcBase)
    (request : Request) : PmcBase.Outcome → Prop where
  | unsupported (absent : machine.canRunOnThisPlatform = false) :
      SetCases libraries machine pmc request ⟨enodev, pmc, []⟩
  | repeated (runs : machine.canRunOnThisPlatform = true)
      (same : hashString request.payload = pmc.lastReachedStateHash) :
      SetCases libraries machine pmc request ⟨mmiOk, pmc, []⟩
  | tooLarge (runs : machine.canRunOnThisPlatform = true)
      (fresh : hashString request.payload ≠ pmc.lastReachedStateHash)
      (large : pmc.isTooLarge request = true) :
      SetCases libraries machine pmc request
        ⟨e2big, { pmc with executionState := ⟨.failed, .deserializingJsonPayload, []⟩ }, []⟩
  | brought (steps : List (Step × Bool))
      (fresh : hashString request.payload ≠ pmc.lastReachedStateHash)
      (addressed : request.IsAddressed) (some_steps : steps ≠ []) :
      SetCases libraries machine pmc request
        ⟨mmiOk, { pmc with
          executionState := ⟨.succeeded, .none, []⟩
          lastReachedStateHash := hashString request.payload }, steps⟩
  | failed (status : ℤ) (executionState : ExecutionState) (steps : List (Step × Bool))
      (fresh : hashString request.payload ≠ pmc.lastReachedStateHash) (error : status ≠ mmiOk) :
      SetCases libraries machine pmc request
        ⟨status, { pmc with executionState, lastReachedStateHash := 0 }, steps⟩

theorem set_cases (libraries : Libraries) (machine : Machine) (pmc : PmcBase)
    (request : Request) :
    SetCases libraries machine pmc request (pmc.set libraries machine request) := by
  rw [PmcBase.set]
  cases runs : machine.canRunOnThisPlatform with
  | false =>
      rw [if_pos rfl]
      exact .unsupported runs
  | true =>
      rw [if_neg (by simp)]
      split
      next same => exact .repeated runs same.symm
      next fresh =>
        split
        next large => exact .tooLarge runs (Ne.symm fresh) large
        next small =>
          rcases @process_ended libraries machine pmc request
            ⟨⟨.running, .deserializingJsonPayload, []⟩, []⟩ with
            ⟨done, addressed, state, steps⟩ | ⟨failed, nonzero⟩
          · simp only [done, if_true, state]
            exact .brought _ (Ne.symm fresh) addressed steps
          · simp only [failed, Bool.false_eq_true, if_false]
            exact .failed _ _ _ (Ne.symm fresh) nonzero

end Outcomes

namespace PmcRun

variable {libraries : Libraries} {run : PmcRun} {call : Machine × Request}
  {payloads : List ByteString}

/-- A payload that was too large since another one was reached. -/
def Disturbs (run : PmcRun) (payload : ByteString) (entry : Entry) : Prop :=
  entry.machine.canRunOnThisPlatform = true ∧ run.pmc.isTooLarge entry.request = true ∧
    entry.request.payload ≠ payload

/-- The payload of a request was reached, and what came after it carried nothing out. -/
structure Reached (run : PmcRun) (since : List Entry) (reached : Entry) (before : List Entry) :
    Prop where
  history : run.history = since ++ reached :: before
  brings : reached.Brings reached.request.payload
  idle : ∀ entry ∈ since, entry.outcome.steps = []
  hash : run.pmc.lastReachedStateHash = hashString reached.request.payload
  state : (run.pmc.executionState = ⟨.succeeded, .none, []⟩ ∧
      ∀ entry ∈ since, ¬run.Disturbs reached.request.payload entry) ∨
    (run.pmc.executionState.stateComponent = .failed ∧
      ∃ entry ∈ since, run.Disturbs reached.request.payload entry)

/-- The invariant of all runs in which the payloads are known. -/
structure Consistent (run : PmcRun) (payloads : List ByteString) : Prop where
  known : ∀ entry ∈ run.history, entry.request.payload ∈ payloads
  reached : run.pmc.lastReachedStateHash = 0 ∨
    ∃ since reached before, run.Reached since reached before

theorem Reached.payload_mem {since before : List Entry} {reached : Entry}
    (at_payload : run.Reached since reached before) (consistent : run.Consistent payloads) :
    reached.request.payload ∈ payloads := by
  apply consistent.known
  rw [at_payload.history]
  simp

theorem Reached.add_harmless {since before : List Entry} {reached entry : Entry}
    (at_payload : run.Reached since reached before) (idle : entry.outcome.steps = [])
    (harmless : ¬run.Disturbs reached.request.payload entry) :
    Reached ⟨run.pmc, entry :: run.history⟩ (entry :: since) reached before := by
  refine ⟨?_, at_payload.brings, List.forall_mem_cons.mpr ⟨idle, at_payload.idle⟩,
    at_payload.hash, ?_⟩
  · rw [at_payload.history]
    rfl
  · rcases at_payload.state with ⟨state, quiet⟩ | ⟨state, other, mem, disturbs⟩
    · exact .inl ⟨state, List.forall_mem_cons.mpr ⟨harmless, quiet⟩⟩
    · exact .inr ⟨state, other, List.mem_cons_of_mem _ mem, disturbs⟩

theorem Reached.add_disturbing {since before : List Entry} {reached entry : Entry}
    (at_payload : run.Reached since reached before) (idle : entry.outcome.steps = [])
    (disturbs : run.Disturbs reached.request.payload entry) :
    Reached ⟨{ run.pmc with executionState := ⟨.failed, .deserializingJsonPayload, []⟩ },
      entry :: run.history⟩ (entry :: since) reached before := by
  refine ⟨?_, at_payload.brings, List.forall_mem_cons.mpr ⟨idle, at_payload.idle⟩,
    at_payload.hash, .inr ⟨rfl, entry, List.mem_cons_self, disturbs⟩⟩
  rw [at_payload.history]
  rfl

theorem Consistent.next (consistent : run.Consistent payloads)
    (injective : Set.InjOn hashString {payload | payload ∈ payloads})
    (known : call.2.payload ∈ payloads) : (run.next libraries call).Consistent payloads := by
  have cases := set_cases libraries call.1 run.pmc call.2
  rw [PmcRun.next]
  generalize run.pmc.set libraries call.1 call.2 = outcome at cases
  refine ⟨List.forall_mem_cons.mpr ⟨known, consistent.known⟩, ?_⟩
  cases cases with
  | unsupported absent =>
      rcases consistent.reached with zero | ⟨since, reached, before, at_payload⟩
      · exact .inl zero
      · refine .inr ⟨_, reached, before, at_payload.add_harmless rfl ?_⟩
        rintro ⟨runs, -, -⟩
        rw [absent] at runs
        cases runs
  | repeated runs same =>
      rcases consistent.reached with zero | ⟨since, reached, before, at_payload⟩
      · exact .inl zero
      · refine .inr ⟨_, reached, before, at_payload.add_harmless rfl ?_⟩
        rintro ⟨-, -, other⟩
        apply other
        exact injective known (at_payload.payload_mem consistent) (same.trans at_payload.hash)
  | tooLarge runs fresh large =>
      rcases consistent.reached with zero | ⟨since, reached, before, at_payload⟩
      · exact .inl zero
      · refine .inr ⟨_, reached, before, at_payload.add_disturbing rfl ⟨runs, large, ?_⟩⟩
        intro same
        apply fresh
        rw [at_payload.hash]
        exact congrArg hashString same
  | brought steps fresh addressed some_steps =>
      exact .inr ⟨[], _, run.history, rfl, ⟨rfl, rfl, some_steps⟩, by simp, rfl,
        .inl ⟨rfl, by simp⟩⟩
  | failed status executionState steps fresh error => exact .inl rfl

theorem consistent_after {maxPayloadSizeBytes : BitVec 32} {directory : ByteString}
    {calls : List (Machine × Request)}
    (injective : Set.InjOn hashString {payload | payload ∈ payloads})
    (known : ∀ call ∈ calls, call.2.payload ∈ payloads) :
    ((initial maxPayloadSizeBytes directory).after libraries calls).Consistent payloads := by
  induction calls using List.reverseRecOn with
  | nil => exact ⟨by simp [PmcRun.after, initial], .inl rfl⟩
  | append_singleton calls call ih =>
      rw [PmcRun.after, List.foldl_append]
      rw [List.forall_mem_append, List.forall_mem_singleton] at known
      exact (ih known.1).next injective known.2

theorem Reached.idleSince_eq {since before : List Entry} {reached : Entry}
    (at_payload : run.Reached since reached before) : idleSince run.history = since := by
  rw [idleSince, at_payload.history, List.takeWhile_append_of_pos, List.takeWhile_cons_of_neg,
    List.append_nil]
  · simpa using at_payload.brings.steps
  · intro entry mem
    exact decide_eq_true (at_payload.idle entry mem)

theorem answersSoundly_iff (consistent : run.Consistent payloads)
    (injective : Set.InjOn hashString {payload | payload ∈ payloads})
    (nonzero : ∀ payload ∈ payloads, hashString payload ≠ 0)
    (known : call.2.payload ∈ payloads) :
    AnswersSoundly libraries run call ↔ RepeatsSafely run call := by
  have cases := set_cases libraries call.1 run.pmc call.2
  rw [AnswersSoundly, RepeatsSafely, PmcRun.next]
  generalize run.pmc.set libraries call.1 call.2 = outcome at cases
  cases cases with
  | unsupported absent =>
      apply iff_of_true
      · intro status
        cases status
      · intro runs
        rw [absent] at runs
        cases runs
  | repeated runs same =>
      simp only [runs, same, forall_const]
      rcases consistent.reached with zero | ⟨since, reached, before, at_payload⟩
      · exact absurd (same.trans zero) (nonzero _ known)
      · have payload : call.2.payload = reached.request.payload :=
          injective known (at_payload.payload_mem consistent) (same.trans at_payload.hash)
        apply and_congr_right
        intro addressed
        rw [at_payload.idleSince_eq, payload]
        rcases at_payload.state with ⟨state, quiet⟩ | ⟨state, entry, mem, disturbs⟩
        · apply iff_of_true
          · have next := @Reached.add_harmless _ since before reached
              ⟨call.1, call.2, ⟨mmiOk, run.pmc, []⟩⟩ at_payload rfl
              fun disturbs => disturbs.2.2 payload
            exact ⟨by rw [state], by rw [state], _, reached, before, next.history, next.brings,
              next.idle⟩
          · intro entry mem entry_runs large
            by_contra other
            exact quiet entry mem ⟨entry_runs, large, other⟩
        · apply iff_of_false
          · rintro ⟨succeeded, -⟩
            rw [state] at succeeded
            cases succeeded
          · intro quiet
            exact disturbs.2.2 (quiet entry mem disturbs.1 disturbs.2.1)
  | tooLarge runs fresh large =>
      apply iff_of_true
      · intro status
        cases status
      · intro _ same
        exact absurd same fresh
  | brought steps fresh addressed some_steps =>
      apply iff_of_true
      · intro _
        exact ⟨addressed, rfl, rfl, [], _, run.history, rfl, ⟨rfl, rfl, some_steps⟩, by simp⟩
      · intro _ same
        exact absurd same fresh
  | failed status executionState steps fresh error =>
      apply iff_of_true
      · intro ok
        exact absurd ok error
      · intro _ same
        exact absurd same fresh

end PmcRun

/-- The answers of a sequence of requests are sound exactly if every repetition in it is safe. -/
theorem answers_sound_iff (libraries : Libraries) (maxPayloadSizeBytes : BitVec 32)
    (directory : ByteString) (calls : List (Machine × Request))
    (injective : Set.InjOn hashString {payload | ∃ call ∈ calls, call.2.payload = payload})
    (nonzero : ∀ call ∈ calls, hashString call.2.payload ≠ 0) :
    (∀ before call after, calls = before ++ call :: after →
      AnswersSoundly libraries
        ((PmcRun.initial maxPayloadSizeBytes directory).after libraries before) call) ↔
    ∀ before call after, calls = before ++ call :: after →
      RepeatsSafely ((PmcRun.initial maxPayloadSizeBytes directory).after libraries before)
        call := by
  apply forall_congr'
  intro before
  apply forall_congr'
  intro call
  apply forall_congr'
  intro after
  apply forall_congr'
  rintro rfl
  have payloads : {payload | payload ∈ (before ++ call :: after).map (·.2.payload)} =
      {payload | ∃ call' ∈ before ++ call :: after, call'.2.payload = payload} := by
    ext payload
    exact List.mem_map
  rw [← payloads] at injective
  apply PmcRun.answersSoundly_iff (PmcRun.consistent_after injective ?_) injective
  · intro payload mem
    rcases List.mem_map.mp mem with ⟨other, other_mem, rfl⟩
    exact nonzero other other_mem
  · exact List.mem_map_of_mem (by simp)
  · intro other mem
    exact List.mem_map_of_mem (List.mem_append_left _ mem)

set_option maxRecDepth 10000 in
/-- A payload that is reached, one that is not an object and the first one again. -/
theorem answers_sound_iff_repeated :
    let libraries := librariesFor (bytes "\x7b\"packages\":[]\x7d") [(packagesName, .array [])]
    let reach : Request :=
      ⟨componentName, desiredObjectName, bytes "\x7b\"packages\":[]\x7d", 15⟩
    let fail : Request := ⟨componentName, desiredObjectName, bytes "[]", 2⟩
    let calls := [reach, fail, reach].map fun request => (machineWith fun _ => 0, request)
    (∀ before call after, calls = before ++ call :: after →
      AnswersSoundly libraries ((PmcRun.initial 0 []).after libraries before) call) ↔
    ∀ before call after, calls = before ++ call :: after →
      RepeatsSafely ((PmcRun.initial 0 []).after libraries before) call := by
  intro libraries reach fail calls
  have known : ∀ call ∈ calls, call.2.payload = reach.payload ∨ call.2.payload = fail.payload := by
    intro call mem
    simp only [calls, List.map_cons, List.map_nil, List.mem_cons, List.not_mem_nil, or_false] at mem
    rcases mem with rfl | rfl | rfl
    · exact .inl rfl
    · exact .inr rfl
    · exact .inl rfl
  have apart : hashString reach.payload ≠ hashString fail.payload := by decide
  apply answers_sound_iff libraries 0 [] calls
  · rintro _ ⟨call, mem, rfl⟩ _ ⟨other, other_mem, rfl⟩ same
    rcases known call mem with payload | payload <;>
      rcases known other other_mem with other_payload | other_payload
    · exact payload.trans other_payload.symm
    · rw [payload, other_payload] at same
      exact absurd same apart
    · rw [payload, other_payload] at same
      exact absurd same.symm apart
    · exact payload.trans other_payload.symm
  · intro call mem
    rcases known call mem with payload | payload <;>
      · rw [payload]
        decide

set_option maxRecDepth 10000 in
/-- A payload that is reached is then sent to a component that does not exist. -/
theorem misaddressed_repetition_succeeds :
    let libraries := librariesFor (bytes "\x7b\"packages\":[]\x7d") [(packagesName, .array [])]
    let machine := machineWith fun _ => 0
    ¬AnswersSoundly libraries
      ((PmcRun.initial 0 []).after libraries [(machine,
        ⟨componentName, desiredObjectName, bytes "\x7b\"packages\":[]\x7d", 15⟩)])
      (machine, ⟨bytes "invalid", desiredObjectName, bytes "\x7b\"packages\":[]\x7d", 15⟩) := by
  intro libraries machine sound
  have addressed := (sound (by decide)).1
  exact absurd addressed.1 (by decide)

end OsConfig.Pmc
