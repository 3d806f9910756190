import Mathlib

/-!
# Computations that keep a log

A computation reads and changes a state, appends entries to a log, and ends with
a value or leaves early. What it achieves is stated about its ending and its
log, and proved along its text: one rule for each way of putting computations
together. Two shapes of statement occur often enough to have rules of their
own. A property of logs that concatenation preserves holds of everything put
together from parts with it; and where leaving early is visible in the log of
each part, it is visible in the log of the whole.
-/

/-- What a run of a computation ends with, what it logged, and the state it left. -/
structure Logged.Ran (ω σ β : Type) where
  ending : β
  log : List ω
  state : σ

/-- A computation over states `σ` with log entries `ω` that may leave early with an `ε`. -/
def Logged (ω σ ε α : Type) : Type :=
  σ → Logged.Ran ω σ (Except ε α)

namespace Logged

variable {ω σ ε α β : Type}

def bind (first : Logged ω σ ε α) (next : α → Logged ω σ ε β) : Logged ω σ ε β :=
  fun state =>
    match first state with
    | ⟨.ok value, log, state⟩ =>
        let second := next value state
        { second with log := log ++ second.log }
    | ⟨.error left, log, state⟩ => ⟨.error left, log, state⟩

instance : Monad (Logged ω σ ε) where
  pure value := fun state => ⟨.ok value, [], state⟩
  bind := bind

/-- Leave early. -/
def leave (left : ε) : Logged ω σ ε α :=
  fun state => ⟨.error left, [], state⟩

/-- Log an entry. -/
def emit (entry : ω) : Logged ω σ ε Unit :=
  fun state => ⟨.ok (), [entry], state⟩

/-- Ask something that may change the state. -/
def ask (query : σ → α × σ) : Logged ω σ ε α :=
  fun state => ⟨.ok (query state).1, [], (query state).2⟩

/-- Replace the way a computation ends. -/
def intercept (inner : Logged ω σ ε α) (change : Except ε α → Except ε β) : Logged ω σ ε β :=
  fun state => { inner state with ending := change (inner state).ending }

/-- Whatever the state at the start, ending and log satisfy the postcondition. -/
def Ensures (computation : Logged ω σ ε α) (post : Except ε α → List ω → Prop) : Prop :=
  ∀ state, post (computation state).ending (computation state).log

namespace Ensures

variable {first : Logged ω σ ε α} {next : α → Logged ω σ ε β}

theorem mono {computation : Logged ω σ ε α} {weak strong : Except ε α → List ω → Prop}
    (ensures : computation.Ensures strong)
    (implies : ∀ ending log, strong ending log → weak ending log) :
    computation.Ensures weak :=
  fun state => implies _ _ (ensures state)

theorem pure {value : α} {post : Except ε α → List ω → Prop} (holds : post (.ok value) []) :
    (Pure.pure value : Logged ω σ ε α).Ensures post :=
  fun _ => holds

theorem leave {left : ε} {post : Except ε α → List ω → Prop} (holds : post (.error left) []) :
    (Logged.leave left : Logged ω σ ε α).Ensures post :=
  fun _ => holds

theorem emit {entry : ω} {post : Except ε Unit → List ω → Prop} (holds : post (.ok ()) [entry]) :
    (Logged.emit entry : Logged ω σ ε Unit).Ensures post :=
  fun _ => holds

theorem ask {query : σ → α × σ} {post : Except ε α → List ω → Prop}
    (holds : ∀ value, post (.ok value) []) :
    (Logged.ask query : Logged ω σ ε α).Ensures post :=
  fun _ => holds _

theorem intercept {inner : Logged ω σ ε α} {change : Except ε α → Except ε β}
    {post : Except ε β → List ω → Prop}
    (ensures : inner.Ensures fun ending log => post (change ending) log) :
    (inner.intercept change).Ensures post :=
  ensures

/-- The rule of sequencing: `middle` is what is known between the two parts. -/
theorem bind {middle : Except ε α → List ω → Prop} {post : Except ε β → List ω → Prop}
    (left : first.Ensures middle)
    (exits : ∀ reason log, middle (.error reason) log → post (.error reason) log)
    (right : ∀ value log, middle (.ok value) log →
      (next value).Ensures fun ending rest => post ending (log ++ rest)) :
    (first >>= next).Ensures post := by
  intro state
  have known := left state
  change post (Logged.bind first next state).ending (Logged.bind first next state).log
  unfold Logged.bind
  rcases ran : first state with ⟨ending, log, after⟩
  rw [ran] at known
  cases ending with
  | error reason => exact exits reason log known
  | ok value => exact right value log known after

end Ensures

section Closed

/-- Properties of logs that hold of the empty log and of concatenations. -/
structure Closed (property : List ω → Prop) : Prop where
  nil : property []
  append : ∀ {first second}, property first → property second → property (first ++ second)

/-- The log of every run has the property. -/
def Keeps (computation : Logged ω σ ε α) (property : List ω → Prop) : Prop :=
  computation.Ensures fun _ log => property log

variable {property : List ω → Prop}

theorem Closed.bind (closed : Closed property) {first : Logged ω σ ε α}
    {next : α → Logged ω σ ε β} (left : first.Keeps property)
    (right : ∀ value, (next value).Keeps property) : (first >>= next).Keeps property := by
  refine Ensures.bind left (fun _ _ holds => holds) ?_
  intro value log holds
  exact (right value).mono fun _ _ rest => closed.append holds rest

theorem Closed.pure (closed : Closed property) (value : α) :
    (Pure.pure value : Logged ω σ ε α).Keeps property :=
  Ensures.pure closed.nil

theorem Closed.leave (closed : Closed property) (left : ε) :
    (Logged.leave left : Logged ω σ ε α).Keeps property :=
  Ensures.leave closed.nil

theorem Closed.ask (closed : Closed property) (query : σ → α × σ) :
    (Logged.ask query : Logged ω σ ε α).Keeps property :=
  Ensures.ask fun _ => closed.nil

theorem Closed.intercept {inner : Logged ω σ ε α} {change : Except ε α → Except ε β}
    (keeps : inner.Keeps property) : (inner.intercept change).Keeps property :=
  Ensures.intercept keeps

/-- No entry of the log satisfies the predicate. -/
def Free (entries : ω → Prop) (log : List ω) : Prop :=
  ∀ entry ∈ log, ¬entries entry

theorem free_append {entries : ω → Prop} {first second : List ω} :
    Free entries (first ++ second) ↔ Free entries first ∧ Free entries second := by
  simp [Free, or_imp, forall_and]

theorem closed_free (entries : ω → Prop) : Closed (Free entries) where
  nil := by simp [Free]
  append left right := free_append.mpr ⟨left, right⟩

end Closed

section Shows

/-- A run ends with a value exactly if its log is free of the given entries. -/
def Shows (computation : Logged ω σ ε α) (entries : ω → Prop) : Prop :=
  computation.Ensures fun ending log => (∃ value, ending = .ok value) ↔ Free entries log

variable {entries : ω → Prop}

theorem Shows.bind {first : Logged ω σ ε α} {next : α → Logged ω σ ε β}
    (left : first.Shows entries) (right : ∀ value, (next value).Shows entries) :
    (first >>= next).Shows entries := by
  refine Ensures.bind left ?_ ?_
  · intro reason log known
    simpa using known
  · intro value log known
    have free : Free entries log := known.mp ⟨value, rfl⟩
    refine (right value).mono fun ending rest shown => ?_
    rw [shown]
    constructor
    · intro restFree
      exact (closed_free entries).append free restFree
    · intro wholeFree entry mem
      exact wholeFree entry (List.mem_append_right log mem)

theorem Shows.pure (entries : ω → Prop) (value : α) :
    (Pure.pure value : Logged ω σ ε α).Shows entries :=
  Ensures.pure (by simp [Free])

theorem Shows.ask (entries : ω → Prop) (query : σ → α × σ) :
    (Logged.ask query : Logged ω σ ε α).Shows entries :=
  Ensures.ask fun _ => by simp [Free]

end Shows

end Logged
