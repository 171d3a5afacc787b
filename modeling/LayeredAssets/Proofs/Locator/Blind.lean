import LayeredAssets.Proofs.Locator.Spared

namespace LayeredAssets.Locator

/-- An archive is looked into in the same way after a change that neither opening it, nor looking,
nor letting it go has an eye for. -/
theorem withArchive_comm {α : Type} {f : Locator → Locator} {host : Host} {s : ActiveSet}
    {name : String} {judge : Locator → Archive → Locator × Verdict α}
    (ho : ∀ l, (f l).openArchive host s name =
      (f (l.openArchive host s name).1, (l.openArchive host s name).2))
    (hj : ∀ l archive, judge (f l) archive = (f (judge l archive).1, (judge l archive).2))
    (hr : ∀ l handle, (f l).release handle = f (l.release handle)) (l : Locator) :
    (f l).withArchive host s name judge =
      (f (l.withArchive host s name judge).1, (l.withArchive host s name judge).2) := by
  unfold withArchive
  rw [ho]
  generalize l.openArchive host s name = opened
  obtain ⟨l', _ | held⟩ := opened
  · rfl
  · dsimp only
    rw [hj, hr]

/-- A search that does not look at which data sets are active. -/
def Blind {α : Type} (search : Locator → Locator × α) : Prop :=
  ∀ l active, search (l.setActive active) = ((search l).1.setActive active, (search l).2)

namespace Blind

variable {name : String}

theorem answer {α : Type} (found : α) : Blind fun l => (l, found) := fun _ _ => rfl

variable (host : Host)

/-- An archive is opened through the data set that is at hand, whatever is active. -/
theorem openArchive (s : ActiveSet) (name : String) :
    Blind fun l => l.openArchive host s name := by
  intro l active
  unfold Locator.openArchive
  dsimp only
  split
  · rfl
  · rfl

theorem obtainChunk (dataSet archive name : String) (file : SubFile) (id : UInt32) :
    Blind fun l => l.obtainChunk dataSet archive name file id := fun _ _ => rfl

theorem withArchive {α : Type} {judge : Locator → Archive → Locator × Verdict α}
    (hj : ∀ archive, Blind fun l => judge l archive) (s : ActiveSet) (name : String) :
    Blind fun l => l.withArchive host s name judge := fun l active =>
  withArchive_comm (f := fun l => l.setActive active) (fun l => openArchive host s name l active)
    (fun l archive => hj archive l active) (fun _ _ => rfl) l

theorem first {α β : Type} {judge : Locator → β → Locator × Verdict α}
    (hj : ∀ candidate, Blind fun l => judge l candidate) (candidates : List β) :
    Blind fun l => Verdict.first judge l candidates := fun _ active =>
  (Verdict.first_comm (I := fun _ => True) (f := fun l => l.setActive active)
    (fun l _ candidate _ => ⟨trivial, hj candidate l active⟩) trivial).2

theorem judgeAnimation (mapping : AnimationMapping) (candidate : ActiveSet × Holding) :
    Blind fun l => judgeAnimation host name mapping l candidate := by
  intro l active
  obtain ⟨s, holding⟩ := candidate
  have ho := openArchive host s holding.archive l active
  unfold Locator.judgeAnimation
  dsimp only at ho ⊢
  rw [ho]
  generalize l.openArchive host s holding.archive = opened
  obtain ⟨l', _ | archive⟩ := opened
  · rfl
  · dsimp only
    cases archive.value.file? mapping.file with
    | none => rfl
    | some file =>
      have hc := obtainChunk s.name holding.archive mapping.file file mapping.id l' active
      dsimp only at hc ⊢
      rw [hc]
      generalize l'.obtainChunk s.name holding.archive mapping.file file mapping.id = obtained
      obtain ⟨l'', _ | chunk⟩ := obtained
      · rfl
      · rfl

theorem judgePath (mapping : PathMapping) (candidate : PathCandidate) :
    Blind fun l => judgePath host name mapping l candidate := by
  refine withArchive host (fun archive => ?_) candidate.set candidate.holding.archive
  cases archive.file? candidate.file with
  | none => exact answer _
  | some file =>
    dsimp only
    cases file.withId? mapping.id with
    | none => exact answer _
    | some chunk => exact answer _

theorem judgeBank (candidate : ActiveSet × BankMapping) :
    Blind fun l => judgeBank host name l candidate := by
  obtain ⟨s, mapping⟩ := candidate
  unfold Locator.judgeBank
  refine withArchive host (fun archive => ?_) s mapping.archive
  intro l active
  have hm : (l.setActive active).map = l.map := rfl
  dsimp only
  rw [hm]
  split
  · split
    · rfl
    · rfl
  · rfl

theorem judgeVideo (candidate : ActiveSet × VideoLocation) :
    Blind fun l => judgeVideo host name l candidate := by
  intro l active
  unfold Locator.judgeVideo
  dsimp only
  cases stream? host candidate.1.backend candidate.2.file with
  | none => rfl
  | some stream => rfl

end Blind
end LayeredAssets.Locator
