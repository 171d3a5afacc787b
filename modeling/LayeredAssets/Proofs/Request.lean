import LayeredAssets.Request

namespace LayeredAssets.Request

/-- Where the owner of a request is. A poll that saw the latch set takes what is in it in a step of
its own, and one who waits may sleep until the latch is set. -/
inductive Stage
  | free
  | taking
  | waiting
  | asleep
  | gone

/-- Setting the latch wakes whoever sleeps before it. -/
def Stage.roused : Stage → Stage
  | asleep => waiting
  | stage => stage

inductive Event (α : Type)
  | completed (ending : Ending α)
  | polled (ready : Bool)
  | looked (response : Option (Except Fault α))
  | waited (result : Except Fault α)

/-- A request between its owner and its worker. -/
structure HandOver (α : Type) where
  request : Request α
  stage : Stage
  ended : Option (Ending α)

section
variable {α : Type}

/-- Each step holds the latch once at most, so the worker may end between any two of them. -/
inductive Step : HandOver α → Option (Event α) → HandOver α → Prop
  | complete {request stage} (ending : Ending α) :
    Step ⟨request, stage, none⟩ (some (.completed ending))
      ⟨request.complete ending, stage.roused, some ending⟩
  | miss {request ended} (h : request.poll.2 = false) :
    Step ⟨request, .free, ended⟩ (some (.polled false)) ⟨request, .free, ended⟩
  | see {request ended} (h : request.poll.2 = true) :
    Step ⟨request, .free, ended⟩ none ⟨request, .taking, ended⟩
  | take {request ended} :
    Step ⟨request, .taking, ended⟩ (some (.polled request.poll.2)) ⟨request.poll.1, .free, ended⟩
  | look {request ended} :
    Step ⟨request, .free, ended⟩ (some (.looked request.response?)) ⟨request, .free, ended⟩
  | wait {request ended} : Step ⟨request, .free, ended⟩ none ⟨request, .waiting, ended⟩
  | sleep {request ended} (h : request.wait? = none) :
    Step ⟨request, .waiting, ended⟩ none ⟨request, .asleep, ended⟩
  /-- Who sleeps may wake for no reason. -/
  | wake {request ended} : Step ⟨request, .asleep, ended⟩ none ⟨request, .waiting, ended⟩
  | leave {request ended result} (h : request.wait? = some result) :
    Step ⟨request, .waiting, ended⟩ (some (.waited result)) ⟨request, .gone, ended⟩

/-- Where no worker could be started, nothing changes the request any more, and whatever its owner
does tells why. -/
theorem refused_step {cause : HostFault} {h next : HandOver α} {event : Option (Event α)}
    (hr : h.request = spawn (.error cause)) (taken : Step h event next) :
    next.request = h.request ∧ event ≠ some (.polled false) ∧
      (∀ response, event = some (.looked response) → response = some (.error (.host cause))) ∧
      ∀ result, event = some (.waited result) → result = .error (.host cause) := by
  obtain ⟨request, stage, ended⟩ := h
  obtain rfl : request = .resolved (.error (.host cause)) := hr
  cases taken with
  | complete ending => simp [complete]
  | miss missed => cases missed
  | see | wait | sleep | wake => simp
  | take => simp [poll]
  | look => simp [response?]
  | leave left => simpa [wait?, eq_comm] using left

/-- What has happened since the worker was set off, the oldest first. -/
inductive Runs : List (Event α) → HandOver α → Prop
  | start : Runs [] ⟨spawn (.ok ()), .free, none⟩
  | step {trace h event next} (before : Runs trace h) (taken : Step h event next) :
    Runs (trace ++ event.toList) next

/-- The worker's result is in the latch until a poll has taken it, and in the request from then on.
Nobody sleeps any more once it is there, and nobody has left before. -/
structure Accounted (trace : List (Event α)) (h : HandOver α) : Prop where
  ended_iff : ∀ ending, h.ended = some ending ↔ .completed ending ∈ trace
  pending : h.ended = none → h.request = .open none ∧ .polled true ∉ trace ∧
    h.stage ≠ .taking ∧ h.stage ≠ .gone
  held : ∀ ending, h.ended = some ending → h.stage ≠ .asleep ∧
    (h.request = .open (some ending.result) ∧ .polled true ∉ trace ∨
      h.request = .resolved ending.result ∧ .polled true ∈ trace)
  gone_iff : h.stage = .gone ↔ ∃ result, .waited result ∈ trace

section
variable {trace : List (Event α)} {h next : HandOver α} {event : Option (Event α)}
  {ending : Ending α}

theorem Accounted.poll_of_ended (ha : Accounted trace h) (he : h.ended = some ending) :
    h.request.poll = (.resolved ending.result, true) := by
  rcases (ha.held ending he).2 with ⟨hr, -⟩ | ⟨hr, -⟩
  · rw [hr, poll]
  · rw [hr, poll]

theorem Accounted.wait?_of_ended (ha : Accounted trace h) (he : h.ended = some ending) :
    h.request.wait? = some ending.result := by
  rcases (ha.held ending he).2 with ⟨hr, -⟩ | ⟨hr, -⟩
  · rw [hr, wait?]
  · rw [hr, wait?]

theorem Accounted.poll_iff (ha : Accounted trace h) :
    h.request.poll.2 = true ↔ ∃ ending, h.ended = some ending := by
  cases he : h.ended with
  | none =>
    rw [(ha.pending he).1]
    simp [poll]
  | some ending =>
    rw [ha.poll_of_ended he]
    simp

theorem Accounted.wait?_iff (ha : Accounted trace h) {result : Except Fault α} :
    h.request.wait? = some result ↔ ∃ ending, h.ended = some ending ∧ ending.result = result := by
  cases he : h.ended with
  | none =>
    rw [(ha.pending he).1]
    simp [wait?]
  | some ending =>
    rw [ha.wait?_of_ended he]
    simp

theorem Accounted.response?_iff (ha : Accounted trace h) {result : Except Fault α} :
    h.request.response? = some result ↔
      .polled true ∈ trace ∧ ∃ ending, h.ended = some ending ∧ ending.result = result := by
  cases he : h.ended with
  | none =>
    obtain ⟨hr, hp, -⟩ := ha.pending he
    rw [hr]
    simp [response?]
  | some ending =>
    rcases (ha.held ending he).2 with ⟨hr, hp⟩ | ⟨hr, hp⟩
    · rw [hr]
      simp [response?, hp]
    · rw [hr]
      simp [response?, hp]

/-- A step that neither ends the worker nor takes anything out of the latch. -/
theorem Accounted.of_same (ha : Accounted trace h) (hr : next.request = h.request)
    (he : next.ended = h.ended) (hc : ∀ ending, event ≠ some (.completed ending))
    (hp : event ≠ some (.polled true))
    (hpending : h.ended = none → next.stage ≠ .taking ∧ next.stage ≠ .gone)
    (hawake : ∀ ending, h.ended = some ending → next.stage ≠ .asleep)
    (hg : next.stage = .gone ↔ h.stage = .gone ∨ ∃ result, event = some (.waited result)) :
    Accounted (trace ++ event.toList) next where
  ended_iff := by
    intro ending
    rw [he, ha.ended_iff, List.mem_append, Option.mem_toList]
    simp [hc]
  pending := by
    intro hn
    rw [he] at hn
    obtain ⟨hreq, hpolled, -⟩ := ha.pending hn
    rw [hr, List.mem_append, Option.mem_toList]
    exact ⟨hreq, by simp [hpolled, hp], hpending hn⟩
  held := by
    intro ending hn
    rw [he] at hn
    rw [hr, List.mem_append, Option.mem_toList]
    simp only [hp, or_false]
    exact ⟨hawake ending hn, (ha.held ending hn).2⟩
  gone_iff := by
    rw [hg, ha.gone_iff]
    simp only [List.mem_append, Option.mem_toList, exists_or]

theorem Accounted.start : Accounted [] (⟨spawn (.ok ()), .free, none⟩ : HandOver α) where
  ended_iff := by simp
  pending := by simp [spawn]
  held := by simp
  gone_iff := by simp

theorem Accounted.step (ha : Accounted trace h) (hs : Step h event next) :
    Accounted (trace ++ event.toList) next := by
  cases hs with
  | @complete request stage ending =>
    obtain ⟨hr, hp, htaking, hgone⟩ := ha.pending rfl
    refine ⟨?_, ?_, ?_, ?_⟩
    · intro other
      have hnone : .completed other ∉ trace := by
        rw [← ha.ended_iff]
        simp
      simp [hnone, eq_comm]
    · simp
    · rintro other ⟨⟩
      refine ⟨?_, Or.inl ?_⟩
      · cases stage <;> simp [Stage.roused]
      · dsimp only at hr
        simp [hr, complete, hp]
    · have hnone := mt ha.gone_iff.mpr hgone
      cases stage <;> simp_all [Stage.roused]
  | miss hm => apply ha.of_same <;> simp
  | @see request ended hm =>
    obtain ⟨ending, rfl⟩ : ∃ ending, ended = some ending := ha.poll_iff.mp hm
    apply ha.of_same <;> simp
  | @take request ended =>
    cases ended with
    | none => exact absurd rfl (ha.pending rfl).2.2.1
    | some ending =>
      have hpoll : request.poll = (.resolved ending.result, true) := ha.poll_of_ended rfl
      refine ⟨?_, by simp, ?_, ?_⟩
      · intro other
        rw [ha.ended_iff]
        simp
      · rintro other ⟨⟩
        simp [hpoll]
      · have := ha.gone_iff
        simp_all
  | look => apply ha.of_same <;> simp
  | wait => apply ha.of_same <;> simp
  | @sleep request ended hw =>
    cases ended with
    | none => apply ha.of_same <;> simp
    | some ending =>
      rw [ha.wait?_of_ended rfl] at hw
      cases hw
  | wake => apply ha.of_same <;> simp
  | @leave request ended result hw =>
    obtain ⟨ending, rfl, -⟩ : ∃ ending, ended = some ending ∧ ending.result = result :=
      ha.wait?_iff.mp hw
    apply ha.of_same <;> simp

theorem Runs.accounted (hr : Runs trace h) : Accounted trace h := by
  induction hr with
  | start => exact .start
  | step _ taken ih => exact ih.step taken

/-- Every event was a step from where the run was before it. -/
theorem Runs.split {e : Event α} {before after : List (Event α)}
    (hr : Runs (before ++ e :: after) h) :
    ∃ h₁ h₂, Runs before h₁ ∧ Step h₁ (some e) h₂ := by
  generalize ht : before ++ e :: after = trace at hr
  induction hr generalizing after with
  | start => simp at ht
  | @step trace h event next hbefore taken ih =>
    rcases List.eq_nil_or_concat after with rfl | ⟨init, last, rfl⟩
    · cases event with
      | none => exact ih (by simpa using ht)
      | some e' =>
        obtain ⟨rfl, he⟩ := List.append_inj' ht rfl
        obtain rfl : e = e' := by simpa using he
        exact ⟨h, next, hbefore, taken⟩
    · cases event with
      | none => exact ih (by simpa using ht)
      | some e' =>
        rw [List.concat_eq_append, ← List.cons_append, ← List.append_assoc] at ht
        have hinit : before ++ e :: init = trace := (List.append_inj' ht rfl).1
        exact ih hinit

section
variable {before after : List (Event α)}

theorem Runs.polled_iff {ready : Bool} (hr : Runs (before ++ .polled ready :: after) h) :
    ready = true ↔ ∃ ending, .completed ending ∈ before := by
  obtain ⟨h₁, h₂, hbefore, taken⟩ := hr.split
  have ha := hbefore.accounted
  simp only [← ha.ended_iff, ← ha.poll_iff]
  cases taken with
  | miss hm => simp [hm]
  | take => exact Iff.rfl

theorem Runs.looked_iff {response : Option (Except Fault α)}
    (hr : Runs (before ++ .looked response :: after) h) (result : Except Fault α) :
    response = some result ↔
      .polled true ∈ before ∧ ∃ ending, .completed ending ∈ before ∧ ending.result = result := by
  obtain ⟨h₁, h₂, hbefore, taken⟩ := hr.split
  have ha := hbefore.accounted
  simp only [← ha.ended_iff]
  cases taken with
  | look => exact ha.response?_iff

theorem Runs.waited {result : Except Fault α} (hr : Runs (before ++ .waited result :: after) h) :
    ∃ ending, .completed ending ∈ before ∧ ending.result = result := by
  obtain ⟨h₁, h₂, hbefore, taken⟩ := hr.split
  have ha := hbefore.accounted
  simp only [← ha.ended_iff]
  cases taken with
  | leave hw => exact ha.wait?_iff.mp hw

/-- Who has left does nothing more, and the worker has done all it does. -/
theorem Runs.nothing_after_waited {result : Except Fault α}
    (hr : Runs (before ++ .waited result :: after) h) : after = [] := by
  cases after with
  | nil => rfl
  | cons e after =>
    rw [List.append_cons] at hr
    obtain ⟨h₁, h₂, hgone, taken⟩ := hr.split
    have ha := hgone.accounted
    have hstage := ha.gone_iff.mpr ⟨result, by simp⟩
    cases taken with
    | complete ending => exact absurd hstage (ha.pending rfl).2.2.2
    | miss | take | look | leave => cases hstage

theorem Runs.not_completed_before {ending : Ending α}
    (hr : Runs (before ++ .completed ending :: after) h) (other : Ending α) :
    .completed other ∉ before := by
  obtain ⟨h₁, h₂, hbefore, taken⟩ := hr.split
  cases taken with
  | complete =>
    rw [← hbefore.accounted.ended_iff]
    simp

theorem Runs.completed_once {ending : Ending α}
    (hr : Runs (before ++ .completed ending :: after) h) (other : Ending α) :
    .completed other ∉ before ++ after := by
  intro hm
  rcases List.mem_append.mp hm with hm | hm
  · exact hr.not_completed_before other hm
  · obtain ⟨between, rest, rfl⟩ := List.append_of_mem hm
    rw [← List.cons_append, ← List.append_assoc] at hr
    exact hr.not_completed_before ending (by simp)

/-- What was seen in the latch is still there to be taken. -/
theorem Runs.taking_ready (hr : Runs trace h) (hs : h.stage = .taking) :
    ∃ next, Step h (some (.polled true)) next := by
  have ha := hr.accounted
  obtain ⟨request, stage, ended⟩ := h
  obtain rfl : stage = .taking := hs
  cases ended with
  | none => exact absurd rfl (ha.pending rfl).2.2.1
  | some ending =>
    have hpoll : request.poll.2 = true := ha.poll_iff.mpr ⟨ending, rfl⟩
    have taken : Step ⟨request, .taking, some ending⟩ (some (.polled request.poll.2)) _ := .take
    rw [hpoll] at taken
    exact ⟨_, taken⟩

/-- Once the worker has ended, a wait can do nothing but leave. -/
theorem Runs.waiting_leaves (hr : Runs trace h) (hm : .completed ending ∈ trace)
    (hs : h.stage = .waiting ∨ h.stage = .asleep) :
    (∃ next, Step h (some (.waited ending.result)) next) ∧
      ∀ event next, Step h event next → event = some (.waited ending.result) := by
  have ha := hr.accounted
  have he := (ha.ended_iff ending).mpr hm
  have hw := ha.wait?_of_ended he
  have hs := hs.resolve_right (ha.held ending he).1
  obtain ⟨request, stage, ended⟩ := h
  obtain rfl : stage = .waiting := hs
  obtain rfl : ended = some ending := he
  refine ⟨⟨_, .leave hw⟩, ?_⟩
  intro event next taken
  cases taken with
  | sleep hn =>
    rw [hw] at hn
    cases hn
  | leave hw' =>
    rw [hw] at hw'
    rw [Option.some.inj hw']

end
end

/-- However the worker's ending falls between what its owner does: a poll tells whether the worker
ended before it; a response is there once a poll has told so, and is the worker's result; a wait
leaves with that result, sleeps no more once it is there, and is the last that happens. -/
theorem handed_over_once {trace : List (Event α)} {h : HandOver α} (run : Runs trace h) :
    (∀ before ready after, trace = before ++ .polled ready :: after →
      (ready = true ↔ ∃ ending, .completed ending ∈ before)) ∧
    (∀ before response after, trace = before ++ .looked response :: after → ∀ result,
      (response = some result ↔ .polled true ∈ before ∧
        ∃ ending, .completed ending ∈ before ∧ ending.result = result)) ∧
    (∀ before result after, trace = before ++ .waited result :: after →
      (∃ ending, .completed ending ∈ before ∧ ending.result = result) ∧ after = []) ∧
    (∀ before ending after, trace = before ++ .completed ending :: after →
      ∀ other, .completed other ∉ before ++ after) ∧
    (h.stage = .taking → ∃ next, Step h (some (.polled true)) next) ∧
    ∀ ending, .completed ending ∈ trace → h.stage = .waiting ∨ h.stage = .asleep →
      (∃ next, Step h (some (.waited ending.result)) next) ∧
        ∀ event next, Step h event next → event = some (.waited ending.result) := by
  refine ⟨?_, ?_, ?_, ?_, run.taking_ready, fun ending => run.waiting_leaves⟩
  · rintro before ready after rfl
    exact run.polled_iff
  · rintro before response after rfl
    exact run.looked_iff
  · rintro before result after rfl
    exact ⟨run.waited, run.nothing_after_waited⟩
  · rintro before ending after rfl
    exact run.completed_once

end

/-- The owner polls too early, polls again, looks, and waits for what the poll has taken already. -/
def lateTrace : List (Event String) :=
  [.polled false, .completed (.answer (.ok "done")), .polled true, .looked (some (.ok "done"))]

def lateWait : HandOver String :=
  ⟨.resolved (.ok "done"), .waiting, some (.answer (.ok "done"))⟩

theorem handed_over_once_late : Runs lateTrace lateWait ∧
    (∃ next, Step lateWait (some (.waited (.ok "done"))) next) ∧
      ∀ event next, Step lateWait event next → event = some (.waited (.ok "done")) := by
  have hpolled : Runs [.polled false] ⟨(spawn (.ok ()) : Request String), .free, none⟩ :=
    Runs.start.step (.miss rfl)
  have hended := hpolled.step (.complete (.answer (.ok "done")))
  have run : Runs lateTrace lateWait := (((hended.step (.see rfl)).step .take).step .look).step .wait
  have hdone := (handed_over_once run).2.2.2.2.2 (.answer (.ok "done")) (by simp [lateTrace])
    (Or.inl rfl)
  exact ⟨run, hdone⟩

end LayeredAssets.Request
