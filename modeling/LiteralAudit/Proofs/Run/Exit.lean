import LiteralAudit.Run

/-!
# How a run ends

A run *completes* if its command comes to an end and its report is delivered.  Then its exit code is
that of the command, and otherwise it is two (`exitCode_run`).  What it says is what its command
says, with an error behind it if it does not complete (`exists_notices_run`).
-/

namespace LiteralAudit

namespace Steps

variable {α β : Type}

@[simp]
theorem snd_after (notices : List Notice) (steps : Steps α) : (after notices steps).2 = steps.2 :=
  rfl

theorem snd_onSuccess (result : Except Failure α) (steps : α → Steps β) :
    (onSuccess result steps).2 = result >>= fun value => (steps value).2 := by
  cases result with
  | error failure => rfl
  | ok value => rfl

theorem snd_onSuccess_eq_ok {result : Except Failure α} {steps : α → Steps β} {value : β} :
    (onSuccess result steps).2 = .ok value ↔ ∃ a, result = .ok a ∧ (steps a).2 = .ok value := by
  cases result with
  | error failure => simp [onSuccess]
  | ok a => simp [onSuccess]

/-- Steps behind a result fail if there is no result, or if they fail themselves. -/
theorem snd_onSuccess_eq_error {result : Except Failure α} {steps : α → Steps β}
    {failure : Failure} : (onSuccess result steps).2 = .error failure ↔
      result = .error failure ∨ ∃ a, result = .ok a ∧ (steps a).2 = .error failure := by
  cases result with
  | error other => simp [onSuccess]
  | ok a => simp [onSuccess]

@[simp]
theorem fst_after (notices : List Notice) (steps : Steps α) :
    (after notices steps).1 = notices ++ steps.1 :=
  rfl

theorem fst_onSuccess {result : Except Failure α} {value : α} (h : result = .ok value)
    (steps : α → Steps β) : (onSuccess result steps).1 = (steps value).1 := by
  rw [h]
  rfl

theorem fst_onSuccess_eq_nil {result : Except Failure α} {steps : α → Steps β}
    (h : ∀ value, (steps value).1 = []) : (onSuccess result steps).1 = [] := by
  cases result with
  | error failure => rfl
  | ok value => exact h value

end Steps

namespace CommandLine

/-- A run comes to its end if its command does and the report is delivered. -/
def Completes (line : CommandLine) (world : World) (finished : Finished) : Prop :=
  (line.steps world).2 = .ok finished ∧
    ∃ delivered, world.deliver line line.outputPath finished.report = .ok delivered

/-- The exit code is that of the command, or two if the run does not come to its end. -/
theorem exitCode_run (line : CommandLine) (world : World) :
    (∃ finished, line.Completes world finished ∧ (line.run world).exitCode = finished.exitCode) ∨
      (∀ finished, ¬line.Completes world finished) ∧
        (line.run world).exitCode = failureCode := by
  rw [run]
  dsimp only [Completes]
  cases hsteps : (line.steps world).2 with
  | error failure =>
      right
      refine ⟨?_, rfl⟩
      rintro finished ⟨hfinished, -⟩
      cases hfinished
  | ok finished =>
      cases hdeliver : world.deliver line line.outputPath finished.report with
      | error failure =>
          right
          refine ⟨?_, ?_⟩
          · rintro finished' ⟨hfinished, delivered, hdelivered⟩
            cases hfinished
            rw [hdeliver] at hdelivered
            cases hdelivered
          · simp [bind, Except.bind, hdeliver, Except.map]
      | ok delivered =>
          left
          refine ⟨finished, ⟨rfl, delivered, hdeliver⟩, ?_⟩
          simp [bind, Except.bind, hdeliver, Except.map]

/-- What a run says is what its command says, and an error at the end if the run fails. -/
theorem exists_notices_run (line : CommandLine) (world : World) :
    ∃ ends, (line.run world).notices = (line.steps world).1 ++ ends ∧
      ∀ notice ∈ ends, notice.severity = .error := by
  have hnone : ∀ notice ∈ ([] : List Notice), notice.severity = .error := nofun
  have hone : ∀ failure : Failure, ∀ notice ∈ [failure.notice], notice.severity = .error := by
    intro failure notice hmem
    rw [List.mem_singleton.mp hmem]
    rfl
  rw [run]
  dsimp only
  cases hsteps : (line.steps world).2 with
  | error failure => exact ⟨[failure.notice], rfl, hone failure⟩
  | ok finished =>
      cases hdeliver : world.deliver line line.outputPath finished.report with
      | error failure =>
          refine ⟨[failure.notice], ?_, hone failure⟩
          simp [bind, Except.bind, hdeliver, Except.map]
      | ok delivered =>
          refine ⟨[], ?_, hnone⟩
          simp [bind, Except.bind, hdeliver, Except.map]

end CommandLine

end LiteralAudit
