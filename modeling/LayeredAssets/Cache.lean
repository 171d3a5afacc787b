import LayeredAssets.Cache.Action
import LayeredAssets.Table

namespace LayeredAssets

/-- A value that some handle refers to. -/
structure CachedValue where
  content : Content
  farewell : List Action

structure Handle where
  key : CacheKey
  value : Nat
  deriving DecidableEq, Repr

/-- What was seen of a key: how many keys there were, whether it was found, and how many there were
then. -/
structure Observation where
  before : Nat
  found : Bool
  after : Nat
  deriving DecidableEq, Repr

/-- The cache only remembers: a slot names a value, and the value lives as long as a handle refers
to it. -/
structure Cache where
  slots : Table CacheKey Nat
  values : Table Nat CachedValue
  handles : Table Nat Handle
  nextValue : Nat
  nextHandle : Nat
  log : List Observation

/-- A handle that was given out, with the value that it refers to. -/
structure Held (kind : Kind) where
  handle : Nat
  value : kind.Value

namespace Cache

def empty : Cache := ⟨.empty, .empty, .empty, 0, 0, []⟩

/-- The number of slots, the dead ones among them. -/
def size (c : Cache) : Nat := c.slots.size

/-- The number and the value that a slot names, if it lives. -/
def live? (c : Cache) (key : CacheKey) : Option (Nat × CachedValue) := do
  let id ← c.slots.get? key
  return (id, ← c.values.get? id)

def liveAs? (c : Cache) (key : CacheKey) (kind : Kind) : Option (Nat × kind.Value) := do
  let (id, value) ← c.live? key
  return (id, ← value.content.as? kind)

/-- A new handle on a value. -/
def hold (c : Cache) (key : CacheKey) (value : Nat) : Cache × Nat :=
  ({ c with
    handles := c.handles.set c.nextHandle ⟨key, value⟩
    nextHandle := c.nextHandle + 1 }, c.nextHandle)

/-- Whatever the slot named before, it names the new value now. -/
def register (c : Cache) (key : CacheKey) (content : Content) (farewell : List Action) :
    Cache × Held content.kind :=
  let c' := { c with
    slots := c.slots.set key c.nextValue
    values := c.values.set c.nextValue ⟨content, farewell⟩
    nextValue := c.nextValue + 1 }
  let (c', handle) := c'.hold key c.nextValue
  (c', ⟨handle, content.value⟩)

/-- A slot is forgotten only if it is dead. -/
def purge (c : Cache) (key : CacheKey) : Cache :=
  match c.slots.get? key with
  | some id => if c.values.contains id then c else { c with slots := c.slots.erase key }
  | none => c

/-- A value of another kind is not found, and stays. -/
def find (c : Cache) (key : CacheKey) (kind : Kind) : Cache × Option (Held kind) :=
  match c.liveAs? key kind with
  | some (id, value) =>
    let (c, handle) := c.hold key id
    (c, some ⟨handle, value⟩)
  | none => (c.purge key, none)

/-- A constructed value meets what its construction may have left in the slot: a value of its kind
is shared, and the new one goes at once. Also answered is the farewell that is due then. -/
def settle (c : Cache) (key : CacheKey) (content : Content) (farewell : List Action) :
    Cache × Held content.kind × List Action :=
  match c.liveAs? key content.kind with
  | some (id, value) =>
    let (c, handle) := c.hold key id
    (c, ⟨handle, value⟩, farewell)
  | none =>
    let (c, held) := c.register key content farewell
    (c, held, [])

/-- A second handle like the first. -/
def share (c : Cache) (handle : Nat) : Cache × Option Nat :=
  match c.handles.get? handle with
  | some h =>
    let (c, handle) := c.hold h.key h.value
    (c, some handle)
  | none => (c, none)

def isHeld (c : Cache) (value : Nat) : Bool :=
  c.handles.entries.any (fun entry => entry.2.value == value)

/-- The handle is gone, and with the last one the value. Its slot is dead then but still there,
which a farewell can see. -/
def letGo (c : Cache) (handle : Handle) (id : Nat) : Cache × List Action :=
  let c := { c with handles := c.handles.erase id }
  if c.isHeld handle.value then (c, [])
  else
    match c.values.get? handle.value with
    | some value => ({ c with values := c.values.erase handle.value }, value.farewell)
    | none => (c, [])

def observe (c : Cache) (key : CacheKey) (kind : Kind) : Cache :=
  let after := c.purge key
  { after with log := c.log ++ [⟨c.size, (c.liveAs? key kind).isSome, after.size⟩] }

/-- What a handle refers to. -/
def content? (c : Cache) (handle : Nat) : Option Content := do
  let h ← c.handles.get? handle
  return (← c.values.get? h.value).content

def key? (c : Cache) (handle : Nat) : Option CacheKey := (c.handles.get? handle).map Handle.key

/-- Whether two handles refer to one value. -/
def sameValue (c : Cache) (a b : Nat) : Bool :=
  match c.handles.get? a, c.handles.get? b with
  | some a, some b => a.value == b.value
  | _, _ => false

def describe (c : Cache) (handle : Nat) : String :=
  match c.key? handle, c.content? handle with
  | some key, some content =>
    "Resource \x7b key: " ++ key.describe ++ ", value: Some(" ++ content.describe ++ ") \x7d"
  | _, _ => ""

end Cache
end LayeredAssets
