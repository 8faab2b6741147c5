import Plibra.Batches.Run

/-!
# Plibra.Batches.Answers — answers may come in any order

A host answers a request by `request_by_id` on the id it kept, then `set_response` on the handle
(spec §4.2, `answer`).  Requests are executed elsewhere and finish in any order (spec §5), so the
answers come back in any order.  They commute: a `set_response` writes only the slot of its own
request, and takes only that request out of reach of `request_by_id`.  Hence a run that ends with
a block of answers can give them in any other order and reach the same state, so every later
event, the `ReadyToSend` responses among them, is the same.
-/

namespace Plibra

namespace BatchesState

variable {T : Type}

/-- A host's answer to the request `id` (spec §4.2, `answer`): `request_by_id`, then
`set_response` on the handle; `none` when `request_by_id` gives nothing. -/
def answer (s : BatchesState T) (id : BatchesElemId) (response : Except Error JsonValue) :
    Option (BatchesState T) :=
  (s.requestById id).map fun elem => s.setResponse elem response

/-- Answers given one after the other; `none` at the first that does not resolve. -/
def answerAll (s : BatchesState T) (answers : List (BatchesElemId × Except Error JsonValue)) :
    Option (BatchesState T) :=
  answers.foldlM (fun s a => s.answer a.1 a.2) s

/-- The call an answer is made with, in the log of a run. -/
def answerOp (a : BatchesElemId × Except Error JsonValue) : Op T :=
  .setResponse a.1 a.2

/-- What `set_response` writes on the handle of `id`: the answer in the slot `id.inner` of the
batch under `id.outer`. -/
def fillAt (s : BatchesState T) (id : BatchesElemId) (response : Except Error JsonValue) :
    BatchesState T :=
  { s with
    batches := s.batches.modify id.outer fun (batch, userParam) =>
      (batch.setResponse id.inner response, userParam) }

/-! ## One answer -/

section One

variable {s : BatchesState T} {id id' : BatchesElemId} {response response' : Except Error JsonValue}

@[simp] theorem answerAll_nil : s.answerAll [] = some s := rfl

theorem answerAll_cons (a : BatchesElemId × Except Error JsonValue)
    (answers : List (BatchesElemId × Except Error JsonValue)) :
    s.answerAll (a :: answers) = (s.answer a.1 a.2).bind (·.answerAll answers) :=
  rfl

theorem answerAll_append (answers answers' : List (BatchesElemId × Except Error JsonValue)) :
    s.answerAll (answers ++ answers') = (s.answerAll answers).bind (·.answerAll answers') :=
  List.foldlM_append ..

theorem setResponse_eq_fillAt {elem : BatchesElem} (h : s.requestById id = some elem) :
    s.setResponse elem response = s.fillAt id response := by
  obtain ⟨_, _, -, hbatch, hinner⟩ := requestById_eq_some.mp h
  obtain ⟨-, hindex, -⟩ := BatchState.requestById_eq_some.mp hinner
  simp only [setResponse, fillAt, hbatch, hindex]

theorem answer_eq_fillAt :
    s.answer id response = (s.requestById id).map fun _ => s.fillAt id response := by
  cases h : s.requestById id with
  | none => simp [answer, h]
  | some _ => simp [answer, h, setResponse_eq_fillAt h]

/-- An answer takes its request out of reach and leaves the others as they were. -/
theorem requestById_fillAt :
    (s.fillAt id response).requestById id' = if id' = id then none else s.requestById id' := by
  obtain ⟨outer, inner⟩ := id
  obtain ⟨outer', inner'⟩ := id'
  simp only [requestById, fillAt, Table.get?_modify, BatchesElemId.mk.injEq]
  by_cases ho : outer' = outer
  · subst ho
    cases s.batches.get? outer' with
    | none => simp
    | some v => by_cases hi : inner' = inner <;> simp [BatchState.requestById_setResponse, hi]
  · simp [ho]

/-- Two answers to different requests commute. -/
theorem fillAt_comm (hne : id ≠ id') :
    (s.fillAt id response).fillAt id' response' = (s.fillAt id' response').fillAt id response := by
  by_cases ho : id.outer = id'.outer
  · have hi : id.inner ≠ id'.inner := fun hi => hne (by cases id; cases id'; simp_all)
    simp only [fillAt, Table.modify_modify, ho]
    congr 2
    funext v
    simp [BatchState.setResponse_comm _ hi]
  · simp only [fillAt, Table.modify_comm _ ho]

theorem answer_comm (hne : id ≠ id') :
    (s.answer id response).bind (·.answer id' response') =
      (s.answer id' response').bind (·.answer id response) := by
  simp only [answer_eq_fillAt]
  cases h : s.requestById id <;> cases h' : s.requestById id' <;>
    simp [requestById_fillAt, hne, Ne.symm hne, h, h', fillAt_comm hne]

/-- A request whose id does not resolve stays out of reach of the answers to others. -/
theorem answerAll_eq_none {answers : List (BatchesElemId × Except Error JsonValue)}
    (h : s.requestById id = none) (hmem : id ∈ answers.map Prod.fst) : s.answerAll answers = none := by
  induction answers generalizing s with
  | nil => cases hmem
  | cons a answers ih =>
    rw [answerAll_cons, answer_eq_fillAt]
    by_cases ha : a.1 = id
    · simp [ha, h]
    · have hmem' : id ∈ answers.map Prod.fst := by
        simpa [Ne.symm ha] using hmem
      cases s.requestById a.1 with
      | none => rfl
      | some _ => exact ih (by rw [requestById_fillAt, if_neg (Ne.symm ha), h]) hmem'

end One

/-! ## A block of answers -/

section Block

variable {answers answers' : List (BatchesElemId × Except Error JsonValue)}

/-- Answers that all resolve are to different requests. -/
theorem nodup_of_answerAll {s s' : BatchesState T} (h : s.answerAll answers = some s') :
    (answers.map Prod.fst).Nodup := by
  induction answers generalizing s with
  | nil => exact List.nodup_nil
  | cons a answers ih =>
    rw [answerAll_cons, answer_eq_fillAt] at h
    cases hq : s.requestById a.1 with
    | none => simp [hq] at h
    | some _ =>
      simp only [hq, Option.map_some', Option.some_bind] at h
      refine List.nodup_cons.mpr ⟨fun hmem => ?_, ih h⟩
      rw [answerAll_eq_none (by rw [requestById_fillAt, if_pos rfl]) hmem] at h
      cases h

/-- The same answers to different requests, in any order, leave the same state. -/
theorem answerAll_perm (hperm : answers.Perm answers') (hnodup : (answers.map Prod.fst).Nodup)
    (s : BatchesState T) : s.answerAll answers = s.answerAll answers' := by
  induction hperm generalizing s with
  | nil => rfl
  | cons a _ ih =>
    rw [answerAll_cons, answerAll_cons]
    congr 1
    exact funext (ih (List.nodup_cons.mp hnodup).2)
  | swap a b l =>
    simp only [List.map_cons, List.nodup_cons, List.mem_cons, not_or] at hnodup
    simp only [answerAll_cons, ← Option.bind_assoc]
    rw [answer_comm (Ne.symm hnodup.1.1)]
  | trans h₁ _ ih₁ ih₂ => exact (ih₁ hnodup s).trans (ih₂ ((h₁.map _).nodup_iff.mp hnodup) s)

end Block

/-! ## Runs that end with answers -/

section Runs

variable {log : List (Op T)} {answers answers' : List (BatchesElemId × Except Error JsonValue)}

/-- The only call that ends a run with `set_response` is an answer on a handle that resolved. -/
theorem run_setResponse_inv {id : BatchesElemId} {response : Except Error JsonValue}
    {s' : BatchesState T} (h : Run (log ++ [.setResponse id response]) s') :
    ∃ s elem, Run log s ∧ s.requestById id = some elem ∧ s' = s.setResponse elem response := by
  generalize hl : log ++ [Op.setResponse id response] = l at h
  cases h with
  | new => simp at hl
  | setResponse _ hrun hq =>
    obtain ⟨rfl, hop⟩ := List.append_inj' hl.symm rfl
    simp only [List.cons.injEq, Op.setResponse.injEq, and_true] at hop
    obtain ⟨rfl, rfl⟩ := hop
    exact ⟨_, _, hrun, hq, rfl⟩
  | inject | nextEvent | requestById | setUserParam =>
    obtain ⟨-, hop⟩ := List.append_inj' hl.symm rfl
    simp at hop

theorem Run.answerAll {s s' : BatchesState T} (h : Run log s) (ha : s.answerAll answers = some s') :
    Run (log ++ answers.map answerOp) s' := by
  induction answers generalizing log s with
  | nil =>
    obtain rfl := Option.some.inj ha
    simpa using h
  | cons a answers ih =>
    rw [answerAll_cons, answer] at ha
    cases hq : s.requestById a.1 with
    | none => simp [hq] at ha
    | some elem =>
      simp only [hq, Option.map_some', Option.some_bind] at ha
      simpa [answerOp] using ih (Run.setResponse a.2 h hq) ha

theorem run_of_answers {s' : BatchesState T} (h : Run (log ++ answers.map answerOp) s') :
    ∃ s, Run log s ∧ s.answerAll answers = some s' := by
  induction answers using List.reverseRecOn generalizing s' with
  | nil => exact ⟨s', by simpa using h, rfl⟩
  | append_singleton answers a ih =>
    rw [List.map_append, ← List.append_assoc] at h
    obtain ⟨s₀, elem, hrun, hq, rfl⟩ := run_setResponse_inv h
    obtain ⟨s, hs, hall⟩ := ih hrun
    refine ⟨s, hs, ?_⟩
    simp [answerAll_append, hall, answerAll_cons, answer, hq]

/-- **Answers may be given in any order.**  A run that ends with a block of answers can give the
same answers in any other order: that is a run too, and it leaves the same state. -/
theorem run_answers_perm {s' : BatchesState T} (h : Run (log ++ answers.map answerOp) s')
    (hperm : answers.Perm answers') : Run (log ++ answers'.map answerOp) s' := by
  obtain ⟨s, hrun, hall⟩ := run_of_answers h
  rw [answerAll_perm hperm (nodup_of_answerAll hall)] at hall
  exact hrun.answerAll hall

end Runs

/-! ### A run: two requests of one message, answered in both orders -/

/-- A JSON array of the calls `ping` and `pong`. -/
def pingPongRequest : Request :=
  .batch [.methodCall pingCall, .methodCall pongCall]

/-- The batch as stored, and once it has handed out its first call. -/
def pingPongBatch : BatchState × BatchState :=
  (BatchState.fromRequest pingPongRequest, (BatchState.fromRequest pingPongRequest).next.2)

/-- `inject` of the message under ticket `0`, then the two requests handed out. -/
def pingPongLog : List (Op Unit) :=
  [.inject pingPongRequest () 0, .nextEvent [0] (some (0, .request pingElem)),
    .nextEvent [0] (some (0, .request ⟨0, ⟨1, pongCall⟩⟩))]

/-- The state that run leaves: both requests handed out, neither answered. -/
def pingPongHanded : BatchesState Unit :=
  afterWork 0 pingPongBatch.2
    (afterWork 0 pingPongBatch.1 ((new : BatchesState Unit).store 0 1 pingPongRequest ()))

/-- The answers: `null` to `ping`, `true` to `pong`. -/
def pingPongAnswers : List (BatchesElemId × Except Error JsonValue) :=
  [(⟨0, 0⟩, .ok .null), (⟨0, 1⟩, .ok (.bool true))]

/-- The state once both are answered. -/
def pingPongAnswered : BatchesState Unit :=
  (pingPongHanded.fillAt ⟨0, 0⟩ (.ok .null)).fillAt ⟨0, 1⟩ (.ok (.bool true))

theorem run_pingPong : Run pingPongLog pingPongHanded :=
  .nextEvent (.nextEvent (@Run.inject Unit [] new pingPongRequest () 0 1 .new rfl)
    (List.Perm.refl _) rfl) (List.Perm.refl _) rfl

theorem run_answers_perm_pingPong :
    Run (pingPongLog ++ pingPongAnswers.map answerOp) pingPongAnswered ∧
      pingPongAnswers.Perm pingPongAnswers.reverse ∧
      Run (pingPongLog ++ pingPongAnswers.reverse.map answerOp) pingPongAnswered :=
  have h : Run (pingPongLog ++ pingPongAnswers.map answerOp) pingPongAnswered :=
    run_pingPong.answerAll rfl
  have hperm : pingPongAnswers.Perm pingPongAnswers.reverse := .swap _ _ _
  ⟨h, hperm, run_answers_perm h hperm⟩

end BatchesState

end Plibra
