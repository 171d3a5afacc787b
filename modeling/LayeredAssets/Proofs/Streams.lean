import LayeredAssets.Stream

namespace LayeredAssets.Stream

inductive Op
  | seek (move : Seek)
  | read (room : Nat)

inductive Outcome
  | moved (answer : Except HostFault Nat)
  | got (answer : Except HostFault Bytes)

def Outcome.Fails : Outcome → Prop
  | moved answer => ∃ cause, answer = .error cause
  | got answer => ∃ cause, answer = .error cause

/-- What one operation after another answers, and what they leave, for anything that they can be
performed on. -/
def runWith {σ : Type} (perform : σ → Op → Outcome × σ) (s : σ) : List Op → List Outcome × σ
  | [] => ([], s)
  | op :: ops =>
    let later := runWith perform (perform s op).2 ops
    ((perform s op).1 :: later.1, later.2)

def perform (s : Stream) : Op → Outcome × Stream
  | .seek move => (s.seek move).map .moved id
  | .read room => (s.read room).map .got id

def run (s : Stream) (ops : List Op) : List Outcome × Stream := runWith perform s ops

/-- What one step keeps, with the operations that are still to come, a whole run keeps. -/
theorem runWith_eq {σ τ : Type} {p : σ → Op → Outcome × σ} {q : τ → Op → Outcome × τ}
    (R : List Op → σ → τ → Prop)
    (step : ∀ {op ops s t}, R (op :: ops) s t →
      (p s op).1 = (q t op).1 ∧ R ops (p s op).2 (q t op).2)
    {ops : List Op} {s : σ} {t : τ} (h : R ops s t) :
    (runWith p s ops).1 = (runWith q t ops).1 ∧
      R [] (runWith p s ops).2 (runWith q t ops).2 := by
  induction ops generalizing s t with
  | nil => exact ⟨rfl, h⟩
  | cons op ops ih =>
    obtain ⟨ho, hr⟩ := step h
    obtain ⟨hos, hlast⟩ := ih hr
    exact ⟨by rw [runWith, runWith, ho, hos], hlast⟩

theorem seek_error {s : Stream} {move : Seek} {cause : HostFault}
    (h : (s.seek move).1 = .error cause) : (s.seek move).2 = s := by
  unfold seek at h ⊢
  split
  · next he => rw [he] at h; cases h
  · rfl

end LayeredAssets.Stream
