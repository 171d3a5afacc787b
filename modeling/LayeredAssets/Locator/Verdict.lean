namespace LayeredAssets

/-- What one candidate does to a search: it is passed over, or it ends the search, for good or for
ill. -/
inductive Verdict (α : Type)
  | passOver
  | settle (found : α)
  | refuse
  deriving DecidableEq, Repr

namespace Verdict

/-- The candidates in order, up to the first that is not passed over. -/
def first {σ β α : Type} (judge : σ → β → σ × Verdict α) : σ → List β → σ × Option α
  | s, [] => (s, none)
  | s, candidate :: rest =>
    match judge s candidate with
    | (s, .passOver) => first judge s rest
    | (s, .settle found) => (s, some found)
    | (s, .refuse) => (s, none)

end Verdict
end LayeredAssets
