import OsConfig.Library.Words

/-!
# Directories that paths lead to

A path is followed name by name, and each name may be a link to anywhere. Only an
empty name and a dot stay in the directory for certain, so a path leads to the
same directory as its beginning in every file system exactly if nothing but such
names is behind that beginning.
-/

namespace Directories

def names (path : List UInt8) : List (List UInt8) :=
  path.splitOnP (· = 47)

def Stays (name : List UInt8) : Prop :=
  name = [] ∨ name = [46]

instance (name : List UInt8) : Decidable (Stays name) :=
  inferInstanceAs (Decidable (_ ∨ _))

/-- The directory that names lead to from another one, where each name leads to a directory. -/
def walk {Directory : Type*} (enter : Directory → List UInt8 → Option Directory) :
    List (List UInt8) → Directory → Option Directory
  | [], directory => some directory
  | name :: rest, directory =>
      if Stays name then walk enter rest directory
      else (enter directory name).bind (walk enter rest)

/-- The names in front of the last one, which is the name of a file. -/
def parents (path : List UInt8) : List (List UInt8) :=
  (names path).dropLast

/-- Wherever links lead, the file of the path is in the folder. -/
def LiesDirectlyIn (folder path : List UInt8) : Prop :=
  ∀ (enter : ℕ → List UInt8 → Option ℕ) (start directory : ℕ),
    walk enter (parents path) start = some directory →
      walk enter (names folder) start = some directory

section Walking

variable {Directory : Type*} {enter : Directory → List UInt8 → Option Directory}

theorem walk_append (front rest : List (List UInt8)) (directory : Directory) :
    walk enter (front ++ rest) directory = (walk enter front directory).bind (walk enter rest) := by
  induction front generalizing directory with
  | nil => rfl
  | cons name front ih =>
      rw [List.cons_append, walk, walk]
      split
      · exact ih directory
      · cases enter directory name with
        | none => rfl
        | some next => exact ih next

theorem walk_of_stays {rest : List (List UInt8)} (stays : ∀ name ∈ rest, Stays name)
    (directory : Directory) : walk enter rest directory = some directory := by
  induction rest with
  | nil => rfl
  | cons name rest ih =>
      rw [List.forall_mem_cons] at stays
      rw [walk, if_pos stays.1, ih stays.2]

theorem walk_down (rest : List (List UInt8)) (level : ℕ) :
    walk (fun level _ => some (level + 1)) rest level =
      some (level + rest.countP fun name => ¬Stays name) := by
  induction rest generalizing level with
  | nil => rfl
  | cons name rest ih =>
      rw [walk]
      split
      next stays => rw [ih, List.countP_cons_of_neg (by simpa using stays)]
      next leaves =>
        rw [Option.bind_some, ih, List.countP_cons_of_pos (by simpa using leaves), Nat.add_right_comm,
          Nat.add_assoc]

end Walking

section Names

variable {folder path ending : List UInt8}

theorem names_append_cons (front rest : List UInt8) :
    names (front ++ 47 :: rest) = names front ++ names rest :=
  List.splitOnP_append_cons front rest (by decide)

theorem names_ne_nil (path : List UInt8) : names path ≠ [] :=
  List.splitOnP_ne_nil _ _

theorem parents_append_cons (front rest : List UInt8) :
    parents (front ++ 47 :: rest) = names front ++ parents rest := by
  rw [parents, names_append_cons, List.dropLast_append_of_ne_nil (names_ne_nil rest), parents]

theorem names_of_notMem (plain : 47 ∉ path) : names path = [path] :=
  List.splitOnP_eq_singleton fun byte mem => by
    simpa using fun slash : byte = 47 => plain (slash ▸ mem)

/-- An ending without a slash belongs to the name of the file. -/
theorem parents_append_of_notMem (plain : 47 ∉ ending) (path : List UInt8) :
    parents (path ++ ending) = parents path := by
  induction path using Words.induction_on_separators fun byte : UInt8 => byte = 47 with
  | run text letters =>
      have apart : 47 ∉ text := fun mem => by simpa using letters 47 mem
      have apart' : 47 ∉ text ++ ending := by simp [apart, plain]
      rw [parents, parents, names_of_notMem apart, names_of_notMem apart']
      rfl
  | separated before separator after letters separated ih =>
      rw [of_decide_eq_true separated, List.append_assoc, List.cons_append, parents_append_cons,
        parents_append_cons, ih]

theorem liesDirectlyIn_iff :
    LiesDirectlyIn folder (folder ++ 47 :: path) ↔ ∀ name ∈ parents path, Stays name := by
  constructor
  · intro lies
    have level := lies (fun level _ => some (level + 1)) 0 _ (walk_down _ _)
    rw [walk_down, parents_append_cons, List.countP_append, Option.some.injEq] at level
    have none : (parents path).countP (fun name => ¬Stays name) = 0 := by omega
    intro name mem
    have stays := List.countP_eq_zero.mp none name mem
    simpa using stays
  · intro stays enter start directory leads
    rw [parents_append_cons, walk_append, Option.bind_eq_some_iff] at leads
    obtain ⟨middle, reached, onward⟩ := leads
    rw [walk_of_stays stays, Option.some.injEq] at onward
    rw [reached, onward]

end Names

end Directories
