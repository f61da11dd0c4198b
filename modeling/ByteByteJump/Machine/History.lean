import ByteByteJump.Machine.Recorded

/-!
# Histories

What a host asks of a machine over time: loading images, from memory or from files, and running
frames. A load that fails is answered with its error and leaves the machine as it was.

## Main statements

* `performAll_append` — a history in two parts is one history
* `perform_of_failsToLoad` — a load that fails is answered, and leaves the machine as it was
* `Reachable.perform` — what can be reached is closed under every action
-/

namespace ByteByteJump

/-- Something that a host asks of a machine. -/
inductive Action where
  | load (image : ByteArray)
  | loadFile (path : String) (content : Except ReadFailure ByteArray)
  | tick (keys : Keys)
  | runFrames (n : Nat) (keys : Keys)

namespace Action

/-- The image that an action loads, if it succeeds in loading one. -/
def loaded? : Action → Option ByteArray
  | load image => if image.size ≤ Memory.capacity then some image else none
  | loadFile _ (.ok image) => if image.size ≤ Memory.capacity then some image else none
  | loadFile _ (.error _) => none
  | tick _ => none
  | runFrames _ _ => none

/-- Whether an action is a load that fails. -/
def failsToLoad : Action → Bool
  | load image => Memory.capacity < image.size
  | loadFile _ (.ok image) => Memory.capacity < image.size
  | loadFile _ (.error _) => true
  | tick _ => false
  | runFrames _ _ => false

/-- The image that a list of actions loaded last. -/
def lastLoaded? (actions : List Action) : Option ByteArray := (actions.filterMap loaded?).getLast?

end Action

namespace Machine

/-- A machine after an attempt to load an image: the old one if the attempt failed, together with
the error. -/
def orElse (m : Machine) : Except LoadError Machine → Machine × Option LoadError
  | .ok loaded => (loaded, none)
  | .error e => (m, some e)

/-- The machine after an action, and the error if the action was a load that failed. -/
def perform (m : Machine) : Action → Except Overflow (Machine × Option LoadError)
  | .load image => .ok (m.orElse (m.load image))
  | .loadFile path content => .ok (m.orElse (m.loadFile path content))
  | .tick keys => (m.tick keys).map fun m => (m, none)
  | .runFrames n keys => (m.runFrames n keys).map fun m => (m, none)

/-- The machine after a list of actions, and the answer to each of them. -/
def performAll : Machine → List Action → Except Overflow (Machine × List (Option LoadError))
  | m, [] => .ok (m, [])
  | m, action :: rest =>
    (m.perform action).bind fun done =>
      (done.1.performAll rest).map fun all => (all.1, done.2 :: all.2)

/-- A machine that a host can bring about. -/
def Reachable (m : Machine) : Prop :=
  ∃ actions answers, initial.performAll actions = .ok (m, answers)

/-! ## Laws -/

@[simp] theorem performAll_nil (m : Machine) : m.performAll [] = .ok (m, []) := rfl

theorem performAll_cons (m : Machine) (action : Action) (rest : List Action) :
    m.performAll (action :: rest) = (m.perform action).bind fun done =>
      (done.1.performAll rest).map fun all => (all.1, done.2 :: all.2) := rfl

theorem performAll_load {m loaded : Machine} {image : ByteArray} (load : m.load image = .ok loaded)
    (rest : List Action) :
    m.performAll (.load image :: rest)
      = (loaded.performAll rest).map fun all => (all.1, none :: all.2) := by
  rw [performAll_cons, perform, load]
  rfl

theorem performAll_tick {m next : Machine} {keys : Keys} (tick : m.tick keys = .ok next)
    (rest : List Action) :
    m.performAll (.tick keys :: rest)
      = (next.performAll rest).map fun all => (all.1, none :: all.2) := by
  rw [performAll_cons, perform, tick]
  rfl

/-- **A history in two parts is one history.** -/
theorem performAll_append (m : Machine) (xs ys : List Action) :
    m.performAll (xs ++ ys) = (m.performAll xs).bind fun first =>
      (first.1.performAll ys).map fun second => (second.1, first.2 ++ second.2) := by
  induction xs generalizing m with
  | nil =>
    rw [List.nil_append, performAll_nil]
    show m.performAll ys = (m.performAll ys).map fun second => (second.1, [] ++ second.2)
    cases m.performAll ys <;> rfl
  | cons action rest ih =>
    rw [List.cons_append, performAll_cons, performAll_cons]
    cases m.perform action with
    | error cause => rfl
    | ok done =>
      show (done.1.performAll (rest ++ ys)).map _ = ((done.1.performAll rest).map _).bind _
      rw [ih]
      cases done.1.performAll rest with
      | error cause => rfl
      | ok first =>
        show ((first.1.performAll ys).map _).map _ = (first.1.performAll ys).map _
        cases first.1.performAll ys <;> rfl

/-- A load that fails leaves the machine as it was. -/
theorem perform_of_failsToLoad {m : Machine} {action : Action} (fails : action.failsToLoad = true) :
    ∃ e, m.perform action = .ok (m, some e) := by
  cases action with
  | load image =>
    have large : Memory.capacity < image.size := of_decide_eq_true fails
    exact ⟨_, by rw [perform, load_of_lt m large]; rfl⟩
  | loadFile path content =>
    cases content with
    | ok image =>
      have large : Memory.capacity < image.size := of_decide_eq_true fails
      exact ⟨_, by rw [perform, loadFile_ok, load_of_lt m large]; rfl⟩
    | error failure => exact ⟨_, by rw [perform, loadFile_error]; rfl⟩
  | tick keys => exact Bool.noConfusion fails
  | runFrames n keys => exact Bool.noConfusion fails

theorem reachable_initial : Reachable initial := ⟨[], [], rfl⟩

/-- What can be reached is closed under every action. -/
theorem Reachable.perform {m m' : Machine} {answer : Option LoadError} (h : Reachable m)
    {action : Action} (step : m.perform action = .ok (m', answer)) : Reachable m' := by
  obtain ⟨actions, answers, run⟩ := h
  refine ⟨actions ++ [action], answers ++ [answer], ?_⟩
  rw [performAll_append, run]
  show (m.performAll [action]).map _ = _
  rw [performAll_cons, step]
  rfl

end Machine

end ByteByteJump
