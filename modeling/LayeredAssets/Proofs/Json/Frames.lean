import LayeredAssets.Json.Reading
import Mathlib.Data.List.Forall2

namespace LayeredAssets.Json

theorem wholeItems_eq_all (items : List Json) : wholeItems items = items.all isWhole := by
  induction items with
  | nil => rfl
  | cons j items ih => rw [wholeItems, ih, List.all_cons]

theorem wholeMembers_eq_all (members : List (Option String × Json)) :
    wholeMembers members = members.all fun m => m.2.isWhole := by
  induction members with
  | nil => rfl
  | cons m members ih => rw [wholeMembers, ih, List.all_cons]

/-- What broke off inside stays broken off outside. -/
theorem isWhole_close {j : Json} (h : j.isWhole = false) (frames : List Frame) :
    (close frames j).isWhole = false := by
  induction frames generalizing j with
  | nil => exact h
  | cons frame frames ih =>
    cases frame with
    | array done =>
      apply ih
      simp [isWhole, wholeItems_eq_all, h]
    | object done key =>
      apply ih
      simp [isWhole, wholeMembers_eq_all, h]

namespace Reading

/-- What has been read of a value that stands inside other containers. -/
def within (outer : List Frame) : Reading → Reading
  | .value frames => .value (frames ++ outer)
  | .firstItem frames => .firstItem (frames ++ outer)
  | .key opened done frames => .key opened done (frames ++ outer)
  | .keyText literal done frames => .keyText literal done (frames ++ outer)
  | .colon name done frames => .colon name done (frames ++ outer)
  | .text literal frames => .text literal (frames ++ outer)
  | .number numeral frames => .number numeral (frames ++ outer)
  | .word left j frames => .word left j (frames ++ outer)
  | .after j frames => .after j (frames ++ outer)
  | .surplus j => .surplus j
  | .broken j => .broken j

/-- Nothing that follows is read any more. -/
inductive Over : Reading → Prop where
  | surplus (j : Json) : Over (.surplus j)
  | broken (j : Json) : Over (.broken j)

/-- An array that was just opened is among the open containers, and what broke off is not whole. -/
def Sound : Reading → Prop
  | .firstItem frames => frames ≠ []
  | .broken j => j.isWhole = false
  | _ => True

/-- The value is complete as it stands, with no container around it. -/
inductive Ends : Reading → Json → Prop where
  | after (j : Json) : Ends (.after j []) j
  | number {numeral : Numeral} (complete : numeral.isComplete = true) :
      Ends (.number numeral []) numeral.value

/-- What a step leads to is sound, and if it is not over, the same step is taken where more
containers are open. -/
def Steady (next : Reading) (nextWithin : List Frame → Reading) : Prop :=
  next.Sound ∧ (next.Over ∨ ∀ outer, nextWithin outer = next.within outer)

section
variable {r : Reading} {j : Json} {frames : List Frame} {c : Char}

theorem steady_breakOff (frames : List Frame) (nextWithin : List Frame → Reading) :
    Steady (breakOff frames) nextWithin :=
  ⟨isWhole_close rfl frames, .inl (.broken _)⟩

theorem steady_startValue (frames : List Frame) (c : Char) :
    Steady (startValue frames c) fun outer => startValue (frames ++ outer) c := by
  unfold startValue
  repeat' split
  all_goals first
    | exact steady_breakOff _ _
    | exact ⟨trivial, .inr fun _ => rfl⟩
    | exact ⟨List.cons_ne_nil _ _, .inr fun _ => rfl⟩

theorem steady_stepAfter (j : Json) (frames : List Frame) (c : Char) :
    Steady (stepAfter j frames c) fun outer => stepAfter j (frames ++ outer) c := by
  unfold stepAfter
  by_cases hblank : isBlank c = true
  · simp only [if_pos hblank]
    exact ⟨trivial, .inr fun _ => rfl⟩
  · simp only [if_neg hblank]
    cases frames with
    | nil => exact ⟨trivial, .inl (.surplus j)⟩
    | cons frame frames =>
      cases frame
      all_goals
        dsimp only [List.cons_append]
        repeat' split
        all_goals first
          | exact steady_breakOff _ _
          | exact ⟨trivial, .inr fun _ => rfl⟩

/-- As long as nothing is over, what stands around a value changes nothing in how it is read. -/
theorem Sound.steady (h : r.Sound) (c : Char) :
    Steady (r.step c) fun outer => (r.within outer).step c := by
  cases r with
  | value frames =>
    simp only [within, step]
    split
    · exact ⟨trivial, .inr fun _ => rfl⟩
    · exact steady_startValue frames c
  | firstItem frames =>
    simp only [within, step]
    repeat' split
    · exact ⟨h, .inr fun _ => rfl⟩
    · -- the array that ends here is among the inner frames
      obtain ⟨frame, frames, rfl⟩ := List.exists_cons_of_ne_nil h
      exact ⟨trivial, .inr fun _ => rfl⟩
    · exact steady_startValue frames c
  | key opened done frames =>
    simp only [within, step]
    repeat' split
    all_goals first
      | exact steady_breakOff _ _
      | exact ⟨trivial, .inr fun _ => rfl⟩
  | keyText literal done frames =>
    simp only [within, step]
    split
    all_goals first
      | exact steady_breakOff _ _
      | exact ⟨trivial, .inr fun _ => rfl⟩
  | colon name done frames =>
    simp only [within, step]
    repeat' split
    all_goals first
      | exact steady_breakOff _ _
      | exact ⟨trivial, .inr fun _ => rfl⟩
  | text literal frames =>
    simp only [within, step]
    split
    all_goals first
      | exact steady_breakOff _ _
      | exact ⟨trivial, .inr fun _ => rfl⟩
  | number numeral frames =>
    simp only [within, step]
    split
    · exact ⟨trivial, .inr fun _ => rfl⟩
    · exact steady_stepAfter _ frames c
    · exact steady_breakOff _ _
  | word left j frames =>
    rcases left with _ | ⟨last, _ | ⟨next, left⟩⟩
    · exact steady_stepAfter j frames c
    all_goals
      simp only [within, step]
      split
      · exact ⟨trivial, .inr fun _ => rfl⟩
      · exact steady_breakOff _ _
  | after j frames => exact steady_stepAfter j frames c
  | surplus j => exact ⟨trivial, .inl (.surplus j)⟩
  | broken j => exact ⟨h, .inl (.broken j)⟩

theorem Over.foldl (h : r.Over) (cs : List Char) : (cs.foldl step r) = r := by
  induction cs with
  | nil => rfl
  | cons c cs ih =>
    cases h with
    | surplus j => exact ih
    | broken j => exact ih

theorem Sound.foldl (h : r.Sound) (cs : List Char) : (cs.foldl step r).Sound := by
  induction cs generalizing r with
  | nil => exact h
  | cons c cs ih => exact ih (h.steady c).1

/-- A value that goes on to its end is read the same way inside other containers. -/
theorem foldl_within (sound : r.Sound) (outer : List Frame) {cs : List Char}
    (h : ¬ (cs.foldl step r).Over) :
    cs.foldl step (r.within outer) = (cs.foldl step r).within outer := by
  induction cs generalizing r with
  | nil => rfl
  | cons c cs ih =>
    rw [List.foldl_cons] at h
    obtain ⟨hsound, hover | hwithin⟩ := sound.steady c
    · rw [hover.foldl] at h
      exact absurd hover h
    · have hstep : (r.within outer).step c = (r.step c).within outer := hwithin outer
      rw [List.foldl_cons, List.foldl_cons, hstep]
      exact ih hsound h

theorem not_whole_of_ended (j : Json) (frame : Frame) (frames : List Frame) :
    (finish.ended j (frame :: frames)).isWhole = false := by
  cases frame with
  | array done => exact isWhole_close rfl _
  | object done name => exact isWhole_close rfl _

/-- What ends as a whole value, with nothing behind it, has no container open. -/
theorem Sound.ends (sound : r.Sound) (whole : r.finish.isWhole = true)
    (last : r.hasSurplus = false) : Ends r r.finish := by
  have hbroken : ∀ frames, (close frames .broken).isWhole ≠ true := by
    intro frames
    rw [isWhole_close rfl frames]
    exact Bool.false_ne_true
  cases r with
  | after j frames =>
    cases frames with
    | nil => exact .after j
    | cons frame frames =>
      rw [finish, not_whole_of_ended] at whole
      cases whole
  | number numeral frames =>
    rw [finish] at whole ⊢
    by_cases hcomplete : numeral.isComplete = true
    · rw [if_pos hcomplete] at whole ⊢
      cases frames with
      | nil => exact .number hcomplete
      | cons frame frames =>
        rw [not_whole_of_ended] at whole
        cases whole
    · rw [if_neg hcomplete] at whole
      exact absurd whole (hbroken _)
  | surplus j => cases last
  | broken j =>
    rw [finish] at whole
    exact absurd (sound.symm.trans whole) Bool.false_ne_true
  | _ => exact absurd whole (hbroken _)

theorem Ends.not_over (h : Ends r j) : ¬ r.Over := by
  intro hover
  cases h with
  | after => cases hover
  | number => cases hover

theorem next_of_isComplete {numeral : Numeral} (h : numeral.isComplete = true)
    (hc : c = ',' ∨ c = '\x7d') : numeral.next c = .ends := by
  obtain ⟨negative, part, digits, places, power, shrinking⟩ := numeral
  rcases hc with rfl | rfl
  all_goals
    cases part with
    | zero | whole | fraction | exponent => rfl
    | _ => cases h

/-- Behind a complete value comes what its container wants. -/
theorem Ends.step (h : Ends r j) (outer : List Frame) (hc : c = ',' ∨ c = '\x7d') :
    (r.within outer).step c = stepAfter j outer c := by
  cases h with
  | after => rfl
  | number hcomplete =>
    rw [within, List.nil_append, Reading.step, next_of_isComplete hcomplete hc]

end
end Reading

/-- The text is the value, with nothing but blanks around it. -/
structure Written (text : String) (j : Json) : Prop where
  document : Document.ofText text = ⟨j, false⟩
  whole : j.isWhole = true

/-- What is the text of a value on its own is so inside other containers. -/
theorem Written.foldl {text : String} {j : Json} (h : Written text j) (outer : List Frame)
    {c : Char} (hc : c = ',' ∨ c = '\x7d') :
    (text.toList.foldl Reading.step (.value outer)).step c = Reading.stepAfter j outer c := by
  obtain ⟨hdocument, hwhole⟩ := h
  injection hdocument with hroot hsurplus
  subst hroot
  have hstart : (Reading.value []).Sound := trivial
  -- What ends as a whole value was never over, so it is read inside containers as it is alone.
  have hends := (hstart.foldl text.toList).ends hwhole hsurplus
  have hwithin := Reading.foldl_within hstart outer hends.not_over
  rw [Reading.within, List.nil_append] at hwithin
  rw [hwithin, hends.step outer hc]

end LayeredAssets.Json
