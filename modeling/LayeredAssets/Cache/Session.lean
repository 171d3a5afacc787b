import LayeredAssets.Cache

namespace LayeredAssets

/-- A step that is due: an action, or what is left of one that other actions came into. -/
inductive Task
  | act (action : Action)
  | settle (key : CacheKey) (content : Content) (farewell : List Action)
  | purge (key : CacheKey)

def Task.weight : Task → Nat
  | act action => action.weight
  | settle _ _ farewell => 1 + Action.weights farewell
  | purge _ => 1

def Task.weights : List Task → Nat
  | [] => 0
  | task :: rest => task.weight + weights rest

namespace Cache

/-- The steps that the farewells of all values can lead to. -/
def weight (c : Cache) : Nat := c.values.total (fun value => Action.weights value.farewell)

/-- One step, and the steps that are due before anything else. -/
def perform (c : Cache) : Task → Cache × List Task
  | .act (.add key content farewell) => ((c.register key content farewell).1, [])
  | .act (.find key kind) => ((c.find key kind).1, [])
  | .act (.get key content construction succeeds farewell) =>
    match c.find key content.kind with
    | (c, some _) => (c, [])
    | (c, none) =>
      (c, construction.map .act ++ (if succeeds then [.settle key content farewell] else []))
  | .act (.remove key) => (c.purge key, [])
  | .act (.share handle) => ((c.share handle).1, [])
  | .act (.drop handle) =>
    match c.handles.get? handle with
    | none => (c, [])
    | some h =>
      let (c, farewell) := c.letGo h handle
      (c, farewell.map .act ++ [.purge h.key])
  | .act (.observe key kind) => (c.observe key kind, [])
  | .settle key content farewell =>
    let settled := c.settle key content farewell
    (settled.1, settled.2.2.map .act)
  | .purge key => (c.purge key, [])

theorem weight_purge (c : Cache) (key : CacheKey) : (c.purge key).weight = c.weight := by
  unfold purge
  split
  · split <;> rfl
  · rfl

theorem weight_find (c : Cache) (key : CacheKey) (kind : Kind) :
    (c.find key kind).1.weight = c.weight := by
  unfold find
  split
  · rfl
  · exact weight_purge c key

theorem weight_register_le (c : Cache) (key : CacheKey) (content : Content)
    (farewell : List Action) :
    (c.register key content farewell).1.weight ≤ c.weight + Action.weights farewell :=
  Table.total_set_le _ c.values c.nextValue ⟨content, farewell⟩

theorem weight_settle_le (c : Cache) (key : CacheKey) (content : Content)
    (farewell : List Action) :
    (c.settle key content farewell).1.weight
      + Action.weights (c.settle key content farewell).2.2 ≤
        c.weight + Action.weights farewell := by
  unfold settle
  split
  · exact Nat.le_refl _
  · exact weight_register_le c key content farewell

theorem weight_share (c : Cache) (handle : Nat) : (c.share handle).1.weight = c.weight := by
  unfold share
  split <;> rfl

theorem weight_letGo_le (c : Cache) (handle : Handle) (id : Nat) :
    (c.letGo handle id).1.weight + Action.weights (c.letGo handle id).2 ≤ c.weight := by
  unfold letGo
  dsimp only
  split
  · exact Nat.le_refl _
  · split
    · next value h => exact Table.total_erase_add_le h
    · exact Nat.le_refl _

theorem weight_observe (c : Cache) (key : CacheKey) (kind : Kind) :
    (c.observe key kind).weight = c.weight :=
  weight_purge c key

theorem weights_act (actions : List Action) :
    Task.weights (actions.map .act) = Action.weights actions := by
  induction actions with
  | nil => rfl
  | cons action rest ih =>
    simp only [List.map_cons, Task.weights, Task.weight, Action.weights] at ih ⊢
    omega

theorem weights_append (a b : List Task) :
    Task.weights (a ++ b) = Task.weights a + Task.weights b := by
  induction a with
  | nil => simp [Task.weights]
  | cons task rest ih =>
    simp only [List.cons_append, Task.weights, ih]
    omega

/-- Each step uses some weight up, since a farewell moves from its value to the steps that are
due. -/
theorem weight_perform_lt (c : Cache) (task : Task) :
    (c.perform task).1.weight + Task.weights (c.perform task).2 < c.weight + task.weight := by
  unfold perform
  split
  · next key content farewell =>
    have := weight_register_le c key content farewell
    simp only [Task.weights, Task.weight, Action.weight]
    omega
  · next key kind =>
    have := weight_find c key kind
    simp only [Task.weights, Task.weight, Action.weight]
    omega
  · next key content construction succeeds farewell =>
    have hf := weight_find c key content.kind
    split
    · next c' held h =>
      rw [h] at hf
      simp only [Task.weights, Task.weight, Action.weight] at hf ⊢
      omega
    · next c' h =>
      rw [h] at hf
      have hs : Task.weights (if succeeds then [Task.settle key content farewell] else []) ≤
          1 + Action.weights farewell := by
        split <;> simp [Task.weights, Task.weight]
      simp only [weights_append, weights_act, Task.weight, Action.weight] at hf ⊢
      omega
  · next key =>
    have := weight_purge c key
    simp only [Task.weights, Task.weight, Action.weight]
    omega
  · next handle =>
    have := weight_share c handle
    simp only [Task.weights, Task.weight, Action.weight]
    omega
  · next handle =>
    split
    · simp only [Task.weights, Task.weight, Action.weight]
      omega
    · next h _ =>
      have := weight_letGo_le c h handle
      simp only [weights_append, weights_act, Task.weight, Action.weight]
      simp only [Task.weights, Task.weight]
      omega
  · next key kind =>
    have := weight_observe c key kind
    simp only [Task.weights, Task.weight, Action.weight]
    omega
  · next key content farewell =>
    have := weight_settle_le c key content farewell
    simp only [weights_act, Task.weight]
    omega
  · next key =>
    have := weight_purge c key
    simp only [Task.weights, Task.weight]
    omega

/-- All steps that are due, each with everything that it leads to before the next one. -/
def run (c : Cache) : List Task → Cache
  | [] => c
  | task :: due =>
    have := c.weight_perform_lt task
    (c.perform task).1.run ((c.perform task).2 ++ due)
termination_by tasks => c.weight + Task.weights tasks
decreasing_by
  rw [weights_append]
  simp only [Task.weights] at this ⊢
  omega

def drop (c : Cache) (handle : Nat) : Cache := c.run [.act (.drop handle)]

/-- A constructed value in its slot, or the one that took its place. -/
def keep (c : Cache) (key : CacheKey) (content : Content) (farewell : List Action) :
    Cache × Held content.kind :=
  let (c, held, farewell) := c.settle key content farewell
  (c.run (farewell.map .act), held)

/-- A live value is shared; otherwise one is constructed, with no hold on the cache. Also answered
is whether the construction ran. -/
def obtain {ε : Type} (c : Cache) (key : CacheKey) (kind : Kind)
    (construct : Cache → Cache × Except ε kind.Value) (farewell : List Action) :
    Cache × Except ε (Held kind) × Bool :=
  match c.find key kind with
  | (c, some held) => (c, .ok held, false)
  | (c, none) =>
    match construct c with
    | (c, .error e) => (c, .error e, true)
    | (c, .ok value) =>
      let (c, held) := c.keep key ⟨kind, value⟩ farewell
      (c, .ok held, true)

end Cache
end LayeredAssets
