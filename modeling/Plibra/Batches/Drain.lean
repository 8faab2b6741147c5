import Plibra.Batches.NextEvent

/-!
# Plibra.Batches.Drain — draining does not depend on the order of the keys

A drain calls `next_event` again and again, with nothing in between, until it returns `None`;
each call may enumerate the keys in another order.  Whatever the orders, a drain ends in the
state `drained s` (every call handed out, the ready batches gone), and from every ticket it
gets the events `pendingAt s t` (the calls still to hand out, then the response if there is
one).  Each call that returns an event lowers `unyielded + live` by at least one, which bounds
the number of calls.
-/

namespace Plibra

namespace BatchState

/-- The batch with every call handed out. -/
def exhaust (b : BatchState) : BatchState :=
  { b with cursor := b.entries.length, cursor_le := le_rfl, pending_empty := by simp }

theorem exhaust_of_le {b : BatchState} (h : b.entries.length ≤ b.cursor) : b.exhaust = b :=
  ext' rfl (Nat.le_antisymm h b.cursor_le) rfl

theorem isReadyToRespond_exhaust {b : BatchState} (h : b.isReadyToRespond) :
    b.exhaust.isReadyToRespond := by
  rwa [exhaust_of_le (cursor_eq_of_ready h).symm.le]

theorem isReadyToRespond_of_isSilent {b : BatchState} (h : b.isSilent) : b.isReadyToRespond := by
  simp only [isSilent, Bool.and_eq_true] at h
  exact h.1

theorem hasWork_eq_false_of_isSilent {b : BatchState} (h : b.isSilent) : b.hasWork = false := by
  have hc := cursor_eq_of_ready (isReadyToRespond_of_isSilent h)
  simp only [isSilent, Bool.and_eq_true, Option.isNone_iff_eq_none] at h
  simp [hasWork, hc, h.2]

end BatchState

namespace BatchesState

variable {T : Type}

/-- The events a drain gets from the batch `b` with user parameter `u` under `t`: its calls
still to hand out, in order, then its response if it has one. -/
def pendingEvents (t : UInt64) (b : BatchState) (u : T) : List (BatchesEvent T) :=
  if h : b.cursor < b.entries.length then
    (b.entries[b.cursor].inc b.cursor).toEvent t :: pendingEvents t (b.advance h) u
  else if b.isReadyToRespond then (b.response.map (.readyToSend · u)).toList else []
termination_by b.entries.length - b.cursor
decreasing_by simp only [BatchState.advance_cursor, BatchState.advance_entries]; omega

/-- The events a drain still owes the ticket `t`. -/
def pendingAt (s : BatchesState T) (t : UInt64) : List (BatchesEvent T) :=
  match s.batches.get? t with
  | some (b, u) => pendingEvents t b u
  | none => []

/-- What is left of an open batch once it has been drained: nothing if it becomes ready,
else the batch with every call handed out. -/
def drainedEntry (v : BatchState × T) : Option (BatchState × T) :=
  if v.1.exhaust.isReadyToRespond then none else some (v.1.exhaust, v.2)

/-- Where every drain of `s` ends. -/
def drained (s : BatchesState T) : BatchesState T :=
  { s with batches := s.batches.filterMapVal drainedEntry }

/-- The calls not handed out yet, over all open batches. -/
def unyielded (s : BatchesState T) : Nat :=
  s.batches.total fun (b, _) => b.entries.length - b.cursor

/-- The weight of a batch in the bound on a drain: its calls still to hand out, and itself. -/
def load (v : BatchState × T) : Nat := v.1.entries.length - v.1.cursor + 1

/-- `next_event` called again and again with nothing in between, each call with its own order
of the keys, each returning an event (with the ticket it came from). -/
inductive Events : BatchesState T → List (UInt64 × BatchesEvent T) → BatchesState T → Prop
  | nil (s : BatchesState T) : Events s [] s
  | cons {s s₁ s' : BatchesState T} {order : List UInt64} {e : UInt64 × BatchesEvent T}
      {es : List (UInt64 × BatchesEvent T)} :
      order.Perm s.batches.keys → nextEventFrom order s = .ok (some e, s₁) → Events s₁ es s' →
      Events s (e :: es) s'

/-- A drain of `s`: events until a call returns `None`, and the state it leaves. -/
def Drains (s : BatchesState T) (es : List (UInt64 × BatchesEvent T)) (s'' : BatchesState T) :
    Prop :=
  ∃ s' order, Events s es s' ∧ order.Perm s'.batches.keys ∧
    nextEventFrom order s' = .ok (none, s'')

/-- The events of a list that came from the ticket `t`, in order. -/
def eventsOf (t : UInt64) (es : List (UInt64 × BatchesEvent T)) : List (BatchesEvent T) :=
  es.filterMap fun e => if e.1 = t then some e.2 else none

/-! ### One batch -/

section Batch

variable {t : UInt64} {b : BatchState} {u : T}

theorem pendingEvents_of_lt (h : b.cursor < b.entries.length) :
    pendingEvents t b u =
      (b.entries[b.cursor].inc b.cursor).toEvent t :: pendingEvents t (b.advance h) u := by
  rw [pendingEvents, dif_pos h]

theorem pendingEvents_of_le (h : b.entries.length ≤ b.cursor) :
    pendingEvents t b u =
      if b.isReadyToRespond then (b.response.map (.readyToSend · u)).toList else [] := by
  rw [pendingEvents, dif_neg (Nat.not_lt.mpr h)]

/-- A batch without work owes nothing. -/
theorem pendingEvents_of_hasWork_false (hw : b.hasWork = false) : pendingEvents t b u = [] := by
  have hp := not_lt_of_hasWork_false hw
  rw [pendingEvents_of_le (Nat.not_lt.mp hp)]
  split_ifs with hr
  · have hn : b.response = none := by simpa [BatchState.hasWork, hp, hr] using hw
    rw [hn]; rfl
  · rfl

/-- The event a batch gives is the first it owes. -/
theorem pendingEvents_of_batchEvent {e : BatchesEvent T} (he : batchEvent t b u = some e) :
    pendingEvents t b u = e :: if h : b.cursor < b.entries.length then pendingEvents t (b.advance h) u
      else [] := by
  rcases batchEvent_eq_some.mp he with ⟨inc, hinc, rfl⟩ | ⟨hnone, hr, r, hres, rfl⟩
  · have hp : b.cursor < b.entries.length :=
      Nat.not_le.mp fun hle => by simp [next_fst_eq_none_iff.mpr hle] at hinc
    rw [BatchState.next_of_lt hp] at hinc
    cases hinc
    rw [pendingEvents_of_lt hp, dif_pos hp]
  · have hp := next_fst_eq_none_iff.mp hnone
    rw [pendingEvents_of_le hp, if_pos hr, hres, dif_neg (Nat.not_lt.mpr hp)]
    rfl

theorem drainedEntry_of_ready (h : b.isReadyToRespond) : drainedEntry (b, u) = none :=
  if_pos (BatchState.isReadyToRespond_exhaust h)

theorem isSilent_of_hasWork_false (hw : b.hasWork = false) (hr : b.isReadyToRespond) :
    b.isSilent := by
  cases hres : b.response <;> simp_all [BatchState.hasWork, BatchState.isSilent]

end Batch

/-! ### One call -/

section Call

variable {s s₁ : BatchesState T} {t : UInt64} {b : BatchState} {u : T}

theorem total_load (s : BatchesState T) :
    s.batches.total load = s.unyielded + s.batches.keys.length :=
  Table.total_add_one _ _

theorem pendingAt_eq (h : s.batches.get? t = some (b, u)) : s.pendingAt t = pendingEvents t b u := by
  simp only [pendingAt, h]

theorem drained_eq_self (h : ∀ k b u, s.batches.get? k = some (b, u) →
    b.hasWork = false ∧ b.isReadyToRespond = false) : s.drained = s := by
  show BatchesState.mk _ _ = BatchesState.mk _ _
  congr 1
  refine Table.filterMapVal_eq_self _ _ fun k ⟨b, u⟩ hk => ?_
  have hp := not_lt_of_hasWork_false (h k b u hk).1
  rw [drainedEntry, BatchState.exhaust_of_le (Nat.not_lt.mp hp), (h k b u hk).2]
  rfl

theorem pendingAt_dropSilentOf (ks : List UInt64) (t : UInt64) :
    (dropSilentOf ks s).pendingAt t = s.pendingAt t := by
  unfold pendingAt
  rcases get?_dropSilentOf_cases ks t with h | ⟨h, b, u, hb, hs⟩
  · rw [h]
  · rw [h, hb]
    exact (pendingEvents_of_hasWork_false (BatchState.hasWork_eq_false_of_isSilent hs)).symm

theorem drained_dropSilentOf (ks : List UInt64) : (dropSilentOf ks s).drained = s.drained := by
  show BatchesState.mk _ _ = BatchesState.mk _ _
  congr 1
  refine Table.filterMapVal_filter _ _ _ fun k ⟨b, u⟩ _ hp => ?_
  simp only [Bool.not_eq_false', Bool.and_eq_true] at hp
  exact drainedEntry_of_ready (BatchState.isReadyToRespond_of_isSilent hp.2)

theorem total_load_dropSilentOf (ks : List UInt64) :
    (dropSilentOf ks s).batches.total load ≤ s.batches.total load :=
  Table.total_filter_le _ _ _

theorem total_load_afterWork (h : s.batches.get? t = some (b, u)) :
    (afterWork t b s).batches.total load < s.batches.total load := by
  unfold afterWork
  split_ifs with hp
  · have hl : load (b.next.2, u) + 1 = load (b, u) := by
      rw [BatchState.next_of_lt hp]
      simp only [load, BatchState.advance_entries, BatchState.advance_cursor]
      omega
    have := Table.total_modify h (fun (_, u) => (b.next.2, u)) load
    dsimp only at this ⊢
    omega
  · have := Table.total_remove h load
    have : 0 < load (b, u) := Nat.succ_pos _
    dsimp only
    omega

theorem drained_afterWork (h : s.batches.get? t = some (b, u)) (hw : b.hasWork = true) :
    (afterWork t b s).drained = s.drained := by
  unfold afterWork
  split_ifs with hp
  · show BatchesState.mk _ _ = BatchesState.mk _ _
    congr 1
    refine Table.filterMapVal_modify _ _ _ _ fun v hv => ?_
    rw [h] at hv
    cases hv
    rw [BatchState.next_of_lt hp]
    rfl
  · show BatchesState.mk _ _ = BatchesState.mk _ _
    congr 1
    rw [Table.remove_snd_eq_filter]
    refine Table.filterMapVal_filter _ _ _ fun k v hk hne => ?_
    obtain rfl : k = t := by simpa using hne
    rw [h] at hk
    cases hk
    have hr : b.isReadyToRespond ∧ b.response.isSome := by simpa [BatchState.hasWork, hp] using hw
    exact drainedEntry_of_ready hr.1

/-- The ticket that gave an event is owed one less, the first it was owed. -/
theorem pendingAt_afterWork_self (h : s.batches.get? t = some (b, u)) {e : BatchesEvent T}
    (he : batchEvent t b u = some e) : s.pendingAt t = e :: (afterWork t b s).pendingAt t := by
  rw [pendingAt_eq h, pendingEvents_of_batchEvent he, pendingAt, get?_afterWork_self h]
  split_ifs with hp
  · rw [BatchState.next_of_lt hp]
  · rfl

theorem pendingAt_afterWork_ne {t' : UInt64} (hne : t' ≠ t) :
    (afterWork t b s).pendingAt t' = s.pendingAt t' := by
  simp only [pendingAt, get?_afterWork_ne hne]

/-- A call that returns an event: the batch with work it came from, in the state with some
silent batches dropped. -/
theorem nextEventFrom_eq_some {order : List UInt64} {e : UInt64 × BatchesEvent T}
    (horder : order.Perm s.batches.keys) (h : nextEventFrom order s = .ok (some e, s₁)) :
    ∃ ks b u, (dropSilentOf ks s).batches.get? e.1 = some (b, u) ∧ b.hasWork = true ∧
      batchEvent e.1 b u = some e.2 ∧ s₁ = afterWork e.1 b (dropSilentOf ks s) := by
  rcases nextEventFrom_cases order s (nodup_of_perm horder) (fun k hk => horder.subset hk) with
    ⟨_, h'⟩ | ⟨pre, t, rest, b, u, rfl, htpre, -, hb, hw, h'⟩ <;> rw [h'] at h
  · cases h
  · simp only [Except.ok.injEq, Prod.mk.injEq, Option.map_eq_some'] at h
    obtain ⟨⟨ev, hev, rfl⟩, rfl⟩ := h
    exact ⟨pre, b, u, by rw [get?_dropSilentOf_of_not_mem htpre, hb], hw, hev, rfl⟩

/-- A call that returns no event leaves the drained state, and nothing is owed. -/
theorem nextEventFrom_eq_none {order : List UInt64} (horder : order.Perm s.batches.keys)
    (h : nextEventFrom order s = .ok (none, s₁)) : s₁ = s.drained ∧ ∀ t, s.pendingAt t = [] := by
  have hmem : ∀ {k b u}, s.batches.get? k = some (b, u) → k ∈ order := fun hk =>
    horder.mem_iff.mpr (Table.mem_keys.mpr ⟨_, hk⟩)
  rcases nextEventFrom_cases order s (nodup_of_perm horder) (fun k hk => horder.subset hk) with
    ⟨hidle, h'⟩ | ⟨pre, t, rest, b, u, rfl, -, -, hb, hw, h'⟩ <;> rw [h'] at h
  · have hidle' : ∀ {k b u}, s.batches.get? k = some (b, u) → b.hasWork = false := fun hk =>
      (workAt_eq hk).symm.trans (hidle _ (hmem hk))
    obtain ⟨⟩ := h
    refine ⟨?_, fun t => ?_⟩
    · rw [← drained_dropSilentOf order, drained_eq_self fun k b u hk => ?_]
      rw [get?_dropSilentOf, Option.filter_eq_some] at hk
      obtain ⟨hk, hns⟩ := hk
      refine ⟨hidle' hk, Bool.eq_false_iff.mpr fun hr => ?_⟩
      simp only [isSilent_of_hasWork_false (hidle' hk) hr, Bool.and_true, Bool.not_eq_true'] at hns
      simp [hmem hk] at hns
    · rcases hk : s.batches.get? t with _ | ⟨b, u⟩
      · simp only [pendingAt, hk]
      · rw [pendingAt_eq hk, pendingEvents_of_hasWork_false (hidle' hk)]
  · have := (batchEvent_isSome (t := t) (u := u)).trans hw
    simp only [Except.ok.injEq, Prod.mk.injEq, Option.map_eq_none'] at h
    simp [h.1] at this

theorem eventsOf_cons (t : UInt64) (e : UInt64 × BatchesEvent T) (es : List (UInt64 × BatchesEvent T)) :
    eventsOf t (e :: es) = eventsOf t [e] ++ eventsOf t es := by
  simp only [eventsOf, List.filterMap_cons, List.filterMap_nil]
  split_ifs <;> rfl

/-- **One call that returns an event** lowers the load, keeps the drained state, and takes the
event off what its ticket is owed. -/
theorem nextEventFrom_some_step {order : List UInt64} {e : UInt64 × BatchesEvent T}
    (horder : order.Perm s.batches.keys) (h : nextEventFrom order s = .ok (some e, s₁)) :
    s₁.batches.total load < s.batches.total load ∧ s₁.drained = s.drained ∧
      ∀ t, s.pendingAt t = eventsOf t [e] ++ s₁.pendingAt t := by
  obtain ⟨ks, b, u, hb, hw, he, rfl⟩ := nextEventFrom_eq_some horder h
  refine ⟨Nat.lt_of_lt_of_le (total_load_afterWork hb) (total_load_dropSilentOf ks),
    (drained_afterWork hb hw).trans (drained_dropSilentOf ks), fun t => ?_⟩
  rw [← pendingAt_dropSilentOf ks t]
  by_cases ht : e.1 = t
  · subst ht
    simp only [eventsOf, List.filterMap_cons, List.filterMap_nil, ite_true, List.singleton_append]
    exact pendingAt_afterWork_self hb he
  · simp only [eventsOf, List.filterMap_cons, List.filterMap_nil, if_neg ht, List.nil_append]
    exact (pendingAt_afterWork_ne (Ne.symm ht)).symm

end Call

/-! ### Drains -/

section Drain

variable {s s' s'' : BatchesState T} {es : List (UInt64 × BatchesEvent T)}

theorem Events.load_le (h : Events s es s') :
    es.length + s'.batches.total load ≤ s.batches.total load := by
  induction h with
  | nil => simp
  | cons horder hstep _ ih =>
    have := (nextEventFrom_some_step horder hstep).1
    simp only [List.length_cons]
    omega

theorem Events.pendingAt_eq (h : Events s es s') :
    s'.drained = s.drained ∧ ∀ t, s.pendingAt t = eventsOf t es ++ s'.pendingAt t := by
  induction h with
  | nil => exact ⟨rfl, fun _ => rfl⟩
  | @cons s s₁ s' order e es horder hstep _ ih =>
    obtain ⟨_, hd, hp⟩ := nextEventFrom_some_step horder hstep
    refine ⟨ih.1.trans hd, fun t => ?_⟩
    rw [hp t, ih.2 t, eventsOf_cons t e es, List.append_assoc]

/-- **What a drain does.**  Whatever the orders, a drain of `s` ends in `drained s` and gives
each ticket `t` the events `pendingAt s t`. -/
theorem Drains.spec (h : Drains s es s'') :
    s'' = s.drained ∧ ∀ t, eventsOf t es = s.pendingAt t := by
  obtain ⟨s', order, hev, horder, hnone⟩ := h
  obtain ⟨hd, hp⟩ := hev.pendingAt_eq
  obtain ⟨rfl, hnil⟩ := nextEventFrom_eq_none horder hnone
  exact ⟨hd, fun t => by rw [hp t, hnil t, List.append_nil]⟩

/-- **Draining does not depend on the order of the keys.**  However each call enumerates the
keys, the calls that return an event number at most `unyielded + live`, so the call that returns
`None` is at the latest the `(unyielded + live + 1)`-th; no call on the way panics; and any two
drains end in the same state and give each ticket the same events in the same order. -/
theorem drain_order_independent (s : BatchesState T) :
    (∀ es s', Events s es s' → es.length ≤ s.unyielded + s.batches.keys.length) ∧
    (∀ es s', Events s es s' → ∀ order, order.Perm s'.batches.keys →
      ∃ r, nextEventFrom order s' = .ok r) ∧
    (∀ es₁ s₁ es₂ s₂, Drains s es₁ s₁ → Drains s es₂ s₂ →
      s₁ = s₂ ∧ ∀ t, eventsOf t es₁ = eventsOf t es₂) := by
  refine ⟨fun es s' h => ?_, fun _ _ _ _ horder => nextEventFrom_ok horder,
    fun es₁ s₁ es₂ s₂ h₁ h₂ => ?_⟩
  · have := h.load_le
    rw [total_load, total_load] at this
    omega
  · obtain ⟨rfl, he₁⟩ := h₁.spec
    obtain ⟨rfl, he₂⟩ := h₂.spec
    exact ⟨rfl, fun t => (he₁ t).trans (he₂ t).symm⟩

end Drain

/-- `echo`'s request, as `busy` hands it out. -/
def echoRequest : BatchesEvent Unit := .request ⟨0, ⟨0, echoCall⟩⟩

/-- The response to `echo` answered with `null`, which `busy` holds under `2`. -/
def echoResponse : Response := .single (.success .null (.num 7))

/-- Two drains of `busy`, one scanning the keys upwards and one downwards: they get the events in
other orders, the same ones from each ticket, and end in the same state. -/
theorem drain_order_independent_busy :
    Drains busy [(0, echoRequest), (2, .readyToSend echoResponse ())] busy.drained ∧
      Drains busy [(2, .readyToSend echoResponse ()), (0, echoRequest)] busy.drained ∧
      [(0, echoRequest), (2, .readyToSend echoResponse ())].length ≤
        busy.unyielded + busy.batches.keys.length ∧
      ∀ t, eventsOf t [(0, echoRequest), (2, .readyToSend echoResponse ())] =
        eventsOf t [(2, .readyToSend echoResponse ()), (0, echoRequest)] := by
  have up : Events busy [(0, echoRequest), (2, .readyToSend echoResponse ())]
      ⟨1, Table.empty.insert 0 (echoPending.next.2, ())⟩ :=
    @Events.cons _ _ _ _ [0, 1, 2] _ _ (List.Perm.refl _) rfl
      (@Events.cons _ _ _ _ [0, 1, 2] _ _ (by decide) rfl (.nil _))
  have down : Events busy [(2, .readyToSend echoResponse ()), (0, echoRequest)]
      ⟨1, Table.empty.insert 0 (echoPending.next.2, ())⟩ :=
    @Events.cons _ _ _ _ [2, 1, 0] _ _ (by decide) rfl
      (@Events.cons _ _ _ _ [1, 0] _ _ (by decide) rfl (.nil _))
  have drainUp : Drains busy _ busy.drained := ⟨_, [0], up, List.Perm.refl _, rfl⟩
  have drainDown : Drains busy _ busy.drained := ⟨_, [0], down, List.Perm.refl _, rfl⟩
  have h := drain_order_independent busy
  exact ⟨drainUp, drainDown, h.1 _ _ up, (h.2.2 _ _ _ _ drainUp drainDown).2⟩

end BatchesState

end Plibra
