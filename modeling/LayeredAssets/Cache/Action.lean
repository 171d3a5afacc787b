import LayeredAssets.Cache.Content
import LayeredAssets.Cache.Key

namespace LayeredAssets

/-- One thing done to a cache. Handles are numbered in the order in which they are given out. A
value may have a farewell: what is done once its last handle is gone. -/
inductive Action
  | add (key : CacheKey) (content : Content) (farewell : List Action)
  | find (key : CacheKey) (kind : Kind)
  /-- The construction runs only if nothing is found, and its content counts only if it succeeds. -/
  | get (key : CacheKey) (content : Content) (construction : List Action) (succeeds : Bool)
      (farewell : List Action)
  | remove (key : CacheKey)
  | share (handle : Nat)
  | drop (handle : Nat)
  /-- Looks for the key, lets it go at once, and puts on record what was seen. -/
  | observe (key : CacheKey) (kind : Kind)

namespace Action

mutual

/-- How many steps an action can lead to at most. -/
def weight : Action → Nat
  | add _ _ farewell => 1 + weights farewell
  | find _ _ => 1
  | get _ _ construction _ farewell => 2 + weights construction + weights farewell
  | remove _ => 1
  | share _ => 1
  | drop _ => 2
  | observe _ _ => 1

def weights : List Action → Nat
  | [] => 0
  | action :: rest => action.weight + weights rest

end

end Action
end LayeredAssets
