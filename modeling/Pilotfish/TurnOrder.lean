import Pilotfish.EffectAudit
import Pilotfish.Turns

/-!
# The log does not go back

A turn is under the bundle that its store was at when it began, a store is only ever built at
the mark and moves up from there, and so does the mark. What has no place in the order of the
numbers is above and below nothing: in memory it does not show as a mark, and lets the store back.

Results:
1. `Agent.OnTop.deliver`: after a delivery the store and the mark are still not below what was
   pinned.
2. `inOrder_step`: what every step keeps of the pinned sequences.
3. `one_policy_per_turn`: no turn mixes two policies, and the sequences behind the receipts that
   are not marked degraded never fall, over every run in which `nan` is not accepted into memory.
-/

namespace Pilotfish
open Python

/-! ## The order of the sequences -/

/-- What the turn pinned, if it is not the floor, bears this sequence. -/
def Turn.pin {rt : Runtime} {sink : ReadableSink} (t : Turn rt sink) : Option Value :=
  if t.pinned.2 then none else some t.pinned.1.sequence

/-- Sequences that do not fall, of which none is above the mark. -/
structure Ascending (pins : List Value) (epochs : EpochStore) : Prop where
  number : ∀ p ∈ pins, ∃ x, p.number = some x
  sorted : pins.Pairwise fun p q => q.lt p ≠ .ok true
  mark : ∀ v, epochs.read = .ok v →
    ∃ m, v.rank = some m ∧ ∀ p ∈ pins, ∃ r, p.rank = some r ∧ r ≤ m

/-- A store whose sequence is not below any of them, nor above the mark, and which is that of its
bundle. -/
structure BundleStore.OnTop {rt : Runtime} (pins : List Value) (epochs : EpochStore)
    (store : BundleStore rt) : Prop where
  number : ∃ x, store.sequence.number = some x
  bundle : ∀ b, store.bundle = some b → b.sequence = store.sequence
  above : ∀ p ∈ pins, store.sequence.lt p ≠ .ok true
  mark : ∀ v m, epochs.read = .ok v → v.rank = some m →
    ∃ k, store.sequence.rank = some k ∧ k ≤ m

section Order
variable {rt : Runtime} {sink : ReadableSink} {a : Agent rt sink} {pins : List Value}
  {epochs : EpochStore} {store : BundleStore rt}

/-- What is accepted into memory is not `nan`. -/
def Delivery.Ordered (a : Agent rt sink) (d : Delivery) : Prop :=
  a.epochs.Volatile → ∀ envelope bundle,
    a.store.Admitted d.envelopeBytes d.now envelope bundle → bundle.sequence ≠ .float .nan

/-- A mark that was committed to leaves what was in order. -/
theorem Ascending.commit (h : Ascending pins epochs) (hstore : store.OnTop pins epochs)
    {faults : EpochFaults} {sequence : Value} {x : Double} (hnumber : sequence.number = some x)
    (hnan : epochs.Volatile → sequence ≠ .float .nan) :
    Ascending pins (epochs.commit faults sequence).2 ∧
    store.OnTop pins (epochs.commit faults sequence).2 := by
  cases hread : epochs.read with
  | error e =>
    rw [(EpochStore.commit_of_unreadable hread faults sequence).2]
    exact ⟨h, hstore⟩
  | ok v =>
    obtain ⟨m, hm, hpins⟩ := h.mark v hread
    obtain ⟨k, hk, hkm⟩ := hstore.mark v m hread hm
    refine ⟨{ h with mark := fun v' hread' => ?_ },
      { hstore with mark := fun v' m' hread' hm' => ?_ }⟩
    · obtain ⟨m', hm', hle, -⟩ := EpochStore.rank_of_commit hread hm hnumber hnan hread'
      refine ⟨m', hm', ?_⟩
      intro p hp
      obtain ⟨r, hr, hrm⟩ := hpins p hp
      exact ⟨r, hr, hrm.trans hle⟩
    · obtain ⟨m'', hm'', hle, -⟩ := EpochStore.rank_of_commit hread hm hnumber hnan hread'
      obtain rfl : m' = m'' := Option.some.inj (hm'.symm.trans hm'')
      exact ⟨k, hk, hkm.trans hle⟩

/-- A bundle whose mark was committed is on top of what the store was on top of. -/
theorem BundleStore.OnTop.install (h : Ascending pins epochs) (hstore : store.OnTop pins epochs)
    {faults : EpochFaults} {bundle : WireBundle}
    (hnewer : bundle.sequence.le store.sequence = .ok false)
    (hnan : epochs.Volatile → bundle.sequence ≠ .float .nan)
    (hcommit : (epochs.commit faults bundle.sequence).1 = .ok ()) (nonce : Value) :
    (store.install bundle nonce).OnTop pins (epochs.commit faults bundle.sequence).2 := by
  obtain ⟨x, -, hx, -, -⟩ := Value.number_of_le hnewer
  cases hread : epochs.read with
  | error e =>
    obtain ⟨e', he'⟩ := (EpochStore.commit_of_unreadable hread faults bundle.sequence).1
    rw [he'] at hcommit
    cases hcommit
  | ok v =>
    obtain ⟨m, hm, hpins⟩ := h.mark v hread
    obtain ⟨k, hk, hkm⟩ := hstore.mark v m hread hm
    refine ⟨⟨x, hx⟩, fun b hb => ?_, fun p hp => ?_, fun v' m' hread' hm' => ?_⟩
    · cases hb
      rfl
    · show bundle.sequence.lt p ≠ .ok true
      obtain ⟨r, hr, -⟩ := hpins p hp
      by_cases hnan' : bundle.sequence = .float .nan
      · rw [hnan']
        exact Value.nan_lt p
      · obtain ⟨n, hn⟩ := Value.rank_of_number hx hnan'
        have habove := hstore.above p hp
        rw [Value.lt_of_rank hk hr, ne_eq, Except.ok.injEq, decide_eq_true_eq, not_lt] at habove
        rw [Value.le_of_rank hn hk, Except.ok.injEq, decide_eq_false_iff_not, not_le] at hnewer
        rw [Value.lt_of_rank hn hr, ne_eq, Except.ok.injEq, decide_eq_true_eq, not_lt]
        exact habove.trans hnewer.le
    · obtain ⟨m'', hm'', -, hdone⟩ := EpochStore.rank_of_commit hread hm hx hnan hread'
      obtain rfl : m' = m'' := Option.some.inj (hm'.symm.trans hm'')
      exact hdone hcommit

/-- What the store is at is pinned as well. -/
theorem Ascending.snoc (h : Ascending pins epochs) (hstore : store.OnTop pins epochs) :
    Ascending (pins ++ [store.sequence]) epochs ∧
    store.OnTop (pins ++ [store.sequence]) epochs := by
  obtain ⟨x, hx⟩ := hstore.number
  refine ⟨⟨?_, ?_, fun v hread => ?_⟩, { hstore with above := ?_ }⟩
  · intro p hp
    rcases List.mem_append.mp hp with hp | hp
    · exact h.number p hp
    · rw [List.mem_singleton.mp hp]
      exact ⟨x, hx⟩
  · refine List.pairwise_append.mpr ⟨h.sorted, List.pairwise_singleton _ _, ?_⟩
    intro p hp q hq
    rw [List.mem_singleton.mp hq]
    exact hstore.above p hp
  · obtain ⟨m, hm, hpins⟩ := h.mark v hread
    refine ⟨m, hm, ?_⟩
    intro p hp
    rcases List.mem_append.mp hp with hp | hp
    · exact hpins p hp
    · rw [List.mem_singleton.mp hp]
      exact hstore.mark v m hread hm
  · intro p hp
    rcases List.mem_append.mp hp with hp | hp
    · exact hstore.above p hp
    · rw [List.mem_singleton.mp hp]
      exact Value.lt_self_of_number hx

/-- An agent whose mark and store are on top of these sequences. -/
def Agent.OnTop (pins : List Value) (a : Agent rt sink) : Prop :=
  Ascending pins a.epochs ∧ a.store.OnTop pins a.epochs

/-- It is on top of them after a delivery. -/
theorem Agent.OnTop.deliver (hon : a.OnTop pins) {d : Delivery} (hd : d.Ordered a) :
    (a.deliver d).OnTop pins := by
  obtain ⟨h, hstore⟩ := hon
  have hcases := BundleStore.accept_cases a.store a.epochs d.faults d.envelopeBytes d.now
  show Ascending pins (a.store.accept a.epochs d.faults d.envelopeBytes d.now).2.2 ∧
    (a.store.accept a.epochs d.faults d.envelopeBytes d.now).2.1.OnTop pins
      (a.store.accept a.epochs d.faults d.envelopeBytes d.now).2.2
  generalize a.store.accept a.epochs d.faults d.envelopeBytes d.now = r at hcases ⊢
  have hadmitted {envelope : Envelope} {bundle : WireBundle}
      (hb : a.store.Admitted d.envelopeBytes d.now envelope bundle) :
      Ascending pins (a.epochs.commit d.faults bundle.sequence).2 ∧
      a.store.OnTop pins (a.epochs.commit d.faults bundle.sequence).2 := by
    obtain ⟨x, -, hx, -, -⟩ := Value.number_of_le hb.newer
    exact h.commit hstore hx fun hvolatile => hd hvolatile envelope bundle hb
  cases hcases with
  | refused e => exact ⟨h, hstore⟩
  | uncommitted envelope bundle e hb failed => exact hadmitted hb
  | unrecorded envelope bundle e hb committed unhashable => exact hadmitted hb
  | installed envelope bundle hb committed hashable =>
    exact ⟨(hadmitted hb).1, hstore.install h hb.newer
      (fun hvolatile => hd hvolatile envelope bundle hb) committed _⟩

/-- Neither the store nor the mark is touched. -/
def SameMark (a b : Agent rt sink) : Prop := b.store = a.store ∧ b.epochs = a.epochs

theorem SameMark.trans {a b c : Agent rt sink} (hab : SameMark a b) (hbc : SameMark b c) :
    SameMark a c := ⟨hbc.1.trans hab.1, hbc.2.trans hab.2⟩

theorem SameMark.onTop {a b : Agent rt sink} (hab : SameMark a b) (h : a.OnTop pins) :
    b.OnTop pins := by
  rw [Agent.OnTop, hab.1, hab.2]
  exact h

/-- What follows foreign code touches them no more. -/
theorem foreign_bind_sameMark {α β : Type} {call : Foreign α}
    {f : α → Effect Exc (Agent rt sink) β} (hf : ∀ x, Effect.Within SameMark (f x))
    (a : Agent rt sink) :
    SameMark (Run.run Agent.deliver a call.deliveries) ((foreign call >>= f) a).2 := by
  rcases hcall : foreign call a with ⟨e | x, a₁⟩
  · rw [Effect.bind_of_error hcall]
    obtain rfl : Run.run Agent.deliver a call.deliveries = a₁ := congrArg Prod.snd hcall
    exact ⟨rfl, rfl⟩
  · rw [Effect.bind_of_ok hcall]
    obtain rfl : Run.run Agent.deliver a call.deliveries = a₁ := congrArg Prod.snd hcall
    exact hf x _

/-- A step of a turn does to them what is delivered meanwhile does. -/
theorem next_sameMark (t : Turn rt sink) (stage : Stage) (a : Agent rt sink) :
    SameMark (Run.run Agent.deliver a (stage.deliveries t)) (stage.next t a).2 := by
  have hpure {α : Type} (r : Except Exc α) :
      Effect.Within SameMark (fun a : Agent rt sink => (r, a)) := fun _ => ⟨rfl, rfl⟩
  have hlift {α β : Type} (r : Except Exc α) {f : α → Effect Exc (Agent rt sink) β}
      (hf : ∀ x, Effect.Within SameMark (f x)) : Effect.Within SameMark (Effect.lift r >>= f) :=
    .bind .trans (fun _ => ⟨rfl, rfl⟩) hf
  have hrecord (entry : Entry) (next : Option Stage) :
      Effect.Within SameMark (Stage.recordThen entry next : Effect Exc (Agent rt sink) _) :=
    .bind .trans (fun _ => ⟨rfl, rfl⟩) fun _ => hpure _
  cases stage with
  | pinned => exact foreign_bind_sameMark (fun _ => hlift _ fun _ => hpure _) a
  | decided d => exact hrecord _ _ a
  | authorised d => exact hrecord _ _ a
  | attempting d =>
    rcases happly : foreign (t.env.apply d) a with ⟨e | u, a₁⟩
    · have hfailed : Stage.next t (.attempting d) a = (.ok (none, some (.failed d e)), a₁) :=
        Effect.tryCatch_of_error (Effect.bind_of_error happly)
      rw [hfailed]
      obtain rfl : Run.run Agent.deliver a (t.env.apply d).deliveries = a₁ :=
        congrArg Prod.snd happly
      exact ⟨rfl, rfl⟩
    · have happlied : Stage.next t (.attempting d) a = (.ok (none, some (.applied d)), a₁) :=
        Effect.tryCatch_of_ok (Effect.bind_of_ok happly)
      rw [happlied]
      obtain rfl : Run.run Agent.deliver a (t.env.apply d).deliveries = a₁ :=
        congrArg Prod.snd happly
      exact ⟨rfl, rfl⟩
  | failed d e => exact hlift _ (fun _ => hrecord _ _) a
  | applied d =>
    exact foreign_bind_sameMark (fun _ => hlift _ fun _ => hlift _ fun _ => hpure _) a
  | audited d observedStateHash complaint => exact hrecord _ _ a

end Order

namespace Station
variable {rt : Runtime} {sink : ReadableSink} {s : Station rt sink} {ended : List (Turn rt sink)}

def agent? (s : Station rt sink) : Option (Agent rt sink) :=
  match s.process with
  | .down _ _ => none
  | .idle a => some a
  | .busy a _ _ => some a

def epochs (s : Station rt sink) : EpochStore :=
  match s.process with
  | .down epochs _ => epochs
  | .idle a => a.epochs
  | .busy a _ _ => a.epochs

/-- What the turns pinned, the floor apart. -/
def pins (s : Station rt sink) : List Value := s.turns.filterMap Turn.pin

/-- Nothing that is delivered in this step brings `nan` into memory. -/
def Ordered (s : Station rt sink) : TurnEvent rt → Prop
  | .deliver d => ∀ a, s.agent? = some a → d.Ordered a
  | .next => ∀ a t stage, s.process = .busy a t stage →
      Run.Along Agent.deliver (fun a d => d.Ordered a) a (stage.deliveries t)
  | _ => True

/-- The pinned sequences do not fall, and the store and the mark are on top of them. -/
structure InOrder (s : Station rt sink) : Prop where
  ascending : Ascending s.pins s.epochs
  store : ∀ a, s.agent? = some a → a.store.OnTop s.pins s.epochs

section InOrder
variable {a : Agent rt sink} {t : Turn rt sink} {stage : Stage}

theorem inOrder_down {epochs : EpochStore} {log : sink.State} :
    (⟨.down epochs log, ended⟩ : Station rt sink).InOrder ↔
    Ascending (ended.filterMap Turn.pin) epochs :=
  ⟨InOrder.ascending, fun h => ⟨h, fun _ ha => (Option.some_ne_none _ ha.symm).elim⟩⟩

theorem inOrder_idle : (⟨.idle a, ended⟩ : Station rt sink).InOrder ↔
    a.OnTop (ended.filterMap Turn.pin) := by
  refine ⟨fun h => ⟨h.ascending, h.store a rfl⟩, fun h => ⟨h.1, ?_⟩⟩
  intro a' ha
  cases ha
  exact h.2

theorem inOrder_busy : (⟨.busy a t stage, ended⟩ : Station rt sink).InOrder ↔
    a.OnTop ((ended ++ [t]).filterMap Turn.pin) := by
  refine ⟨fun h => ⟨h.ascending, h.store a rfl⟩, fun h => ⟨h.1, ?_⟩⟩
  intro a' ha
  cases ha
  exact h.2

theorem inOrder_fresh {epochs : EpochStore} (h : IntegerMark epochs) (log : sink.State) :
    (fresh epochs log : Station rt sink).InOrder := by
  refine inOrder_down.mpr ⟨fun p hp => (List.not_mem_nil hp).elim, .nil, ?_⟩
  intro v hread
  obtain ⟨n, rfl⟩ := h v hread
  obtain ⟨m, hm⟩ := Value.rank_int n
  exact ⟨m, hm, fun p hp => (List.not_mem_nil hp).elim⟩

/-- A process that has built its store over the mark. -/
theorem inOrder_start {trustedKey : rt.PublicKey} {expectedIssuer siteId : String}
    {signedFloor : Bytes} {floorLinks : Option (List Link)} {readFault : Option Exc}
    {epochs : EpochStore} {log : sink.State} {store : BundleStore rt} {chain : ReceiptChain rt}
    (h : (⟨.down epochs log, ended⟩ : Station rt sink).InOrder)
    (hinit : BundleStore.init trustedKey expectedIssuer siteId signedFloor floorLinks epochs
      readFault = .ok store) :
    (⟨.idle ⟨store, epochs, chain, log⟩, ended⟩ : Station rt sink).InOrder := by
  obtain ⟨floor, sequence, -, -, hread, rfl⟩ := BundleStore.init_ok.mp hinit
  obtain ⟨m, hm, hpins⟩ := h.ascending.mark sequence hread
  obtain ⟨x, hx, -⟩ := Value.number_of_rank hm
  refine inOrder_idle.mpr ⟨h.ascending, ⟨x, hx⟩,
    fun b hb => (Option.some_ne_none b hb.symm).elim, fun p hp => ?_, fun v m' hread' hm' => ?_⟩
  · obtain ⟨r, hr, hrm⟩ := hpins p hp
    show sequence.lt p ≠ .ok true
    rw [Value.lt_of_rank hm hr, ne_eq, Except.ok.injEq, decide_eq_true_eq, not_lt]
    exact hrm
  · obtain rfl : sequence = v := Except.ok.inj (hread.symm.trans hread')
    exact ⟨m, hm, (Option.some.inj (hm.symm.trans hm')).le⟩

/-- A turn pins what the store is at, or the floor. -/
theorem inOrder_call (h : (⟨.idle a, ended⟩ : Station rt sink).InOrder) (env : Environment)
    (siteId : String) (now : DateTime) :
    (step (⟨.idle a, ended⟩ : Station rt sink) (.call env siteId now)).InOrder := by
  let t : Turn rt sink := { agent := a, env := env, siteId := siteId, now := now }
  obtain ⟨hascending, hstore⟩ := inOrder_idle.mp h
  refine inOrder_busy.mpr ?_
  rw [List.filterMap_append]
  show a.OnTop (ended.filterMap Turn.pin ++ [t].filterMap Turn.pin)
  cases hdegraded : t.pinned.2 with
  | true =>
    have hpin : t.pin = none := by rw [Turn.pin, if_pos hdegraded]
    rw [List.filterMap_cons_none hpin, List.filterMap_nil, List.append_nil]
    exact ⟨hascending, hstore⟩
  | false =>
    have hcurrent : a.store.current now = (t.pinned.1, false) := Prod.ext rfl hdegraded
    have hsequence : t.pinned.1.sequence = a.store.sequence :=
      hstore.bundle _ (BundleStore.current_not_degraded.mp hcurrent).1
    have hpin : t.pin = some a.store.sequence := by
      rw [Turn.pin, hdegraded, if_neg Bool.false_ne_true, hsequence]
    rw [List.filterMap_cons_some hpin, List.filterMap_nil]
    exact hascending.snoc hstore

theorem inOrder_next (h : (⟨.busy a t stage, ended⟩ : Station rt sink).InOrder)
    (hordered : (⟨.busy a t stage, ended⟩ : Station rt sink).Ordered .next) :
    (step (⟨.busy a t stage, ended⟩ : Station rt sink) .next).InOrder := by
  have hrun : (Run.run Agent.deliver a (stage.deliveries t)).OnTop
      ((ended ++ [t]).filterMap Turn.pin) :=
    (hordered a t stage rfl).invariant (fun _ _ hi hd => hi.deliver hd) (inOrder_busy.mp h)
  have hnextOn := (next_sameMark t stage a).onTop hrun
  have hpins (receipt : Option Receipt) : (ended ++ [t.write receipt]).filterMap Turn.pin =
      (ended ++ [t]).filterMap Turn.pin := by
    rw [List.filterMap_append, List.filterMap_append]
    rfl
  rw [step_next rfl]
  rcases hnext : stage.next t a with ⟨e | ⟨receipt, _ | stage'⟩, a'⟩
  · rw [hnext] at hnextOn
    exact inOrder_idle.mpr hnextOn
  · rw [hnext, ← hpins receipt] at hnextOn
    exact inOrder_idle.mpr hnextOn
  · rw [hnext, ← hpins receipt] at hnextOn
    exact inOrder_busy.mpr hnextOn

/-- Every step in which no `nan` gets into memory keeps the order. -/
theorem inOrder_step (h : s.InOrder) {event : TurnEvent rt} (hordered : s.Ordered event) :
    (s.step event).InOrder := by
  have hmoves := s.moves_step event
  generalize s.step event = s' at hmoves ⊢
  cases hmoves with
  | still => exact h
  | start hinit hrecover => exact inOrder_start h hinit
  | deliver a ended d => exact inOrder_idle.mpr ((inOrder_idle.mp h).deliver (hordered a rfl))
  | deliverBusy a t stage ended d =>
    exact inOrder_busy.mpr ((inOrder_busy.mp h).deliver (hordered a rfl))
  | call a ended env siteId now => exact inOrder_call h env siteId now
  | next a t stage ended => exact inOrder_next h hordered
  | stop a ended => exact inOrder_down.mpr (inOrder_idle.mp h).1
  | stopBusy a t stage ended => exact inOrder_down.mpr (inOrder_busy.mp h).1

/-- The sequences behind the receipts are those that were pinned, and do not fall. -/
theorem sequences_sorted (h : s.InOrder)
    (hdecides : ∀ t ∈ s.turns, ∀ r ∈ t.receipts, t.Decides r.decision) :
    s.sequences.Pairwise fun v w => w.lt v ≠ .ok true := by
  have hpin {t : Turn rt sink} (ht : t ∈ s.turns) {v : Value} (hv : v ∈ t.sequences) :
      t.pin = some v := by
    obtain ⟨r, hr, rfl⟩ := List.mem_map.mp hv
    obtain ⟨hmem, hdegraded⟩ := List.mem_filter.mp hr
    rw [(hdecides t ht r hmem).degraded, Bool.not_eq_true'] at hdegraded
    rw [Turn.pin, hdegraded, if_neg Bool.false_ne_true]
  have hsorted := List.pairwise_filterMap.mp h.ascending.sorted
  refine List.pairwise_flatMap.mpr ⟨fun t ht => ?_, ?_⟩
  · -- within a turn there is one sequence
    refine List.pairwise_of_forall_mem_list ?_
    intro v hv w hw
    obtain rfl : v = w := Option.some.inj ((hpin ht hv).symm.trans (hpin ht hw))
    obtain ⟨x, hx⟩ := h.ascending.number v (List.mem_filterMap.mpr ⟨t, ht, hpin ht hv⟩)
    exact Value.lt_self_of_number hx
  · refine hsorted.imp_of_mem ?_
    intro t t' ht ht' hle v hv w hw
    exact hle v (hpin ht hv) w (hpin ht' hw)

end InOrder

end Station

/-- No turn mixes two policies, and the log does not go back, over every run of turns with
deliveries at any point and with restarts, as long as no `nan` is accepted into memory. -/
theorem one_policy_per_turn {rt : Runtime} (laws : rt.Lawful) {sink : ReadableSink}
    {holds : sink.State → List Bytes → Prop} (lawful : sink.Lawful holds) {epochs : EpochStore}
    (hmark : IntegerMark epochs) {log : sink.State} {before : List Bytes} (hlog : holds log before)
    {events : List (TurnEvent rt)}
    (hordered : Run.Along Station.step Station.Ordered (Station.fresh epochs log) events) :
    let s := Run.run Station.step (Station.fresh epochs log) events
    holds s.log (before ++ s.turns.flatMap Turn.lines) ∧ (∀ t ∈ s.turns, t.OnePolicy) ∧
      s.sequences.Pairwise fun v w => w.lt v ≠ .ok true := by
  intro s
  have hrecorded : s.WellRecorded holds before :=
    Station.wellRecorded_run laws lawful (Station.wellRecorded_fresh hlog epochs) events
  have horder : s.InOrder := hordered.invariant (I := Station.InOrder)
    (fun _ _ hs he => Station.inOrder_step hs he) (Station.inOrder_fresh hmark log)
  exact ⟨hrecorded.held, fun t ht => onePolicy_of_decides (hrecorded.decides t ht),
    Station.sequences_sorted horder hrecorded.decides⟩

/-! ## Integer sequences -/

/-- All that is delivered while the foreign code of an environment runs has integer sequences. -/
structure Environment.IntegerSequences (rt : Runtime) (env : Environment) : Prop where
  observe : ∀ d ∈ env.observe.deliveries, IntegerSequence rt d.envelopeBytes
  apply : ∀ decision, ∀ d ∈ (env.apply decision).deliveries, IntegerSequence rt d.envelopeBytes
  readback : ∀ decision, ∀ d ∈ (env.readback decision).deliveries,
    IntegerSequence rt d.envelopeBytes

/-- All deliveries of an event have integer sequences. -/
def TurnEvent.IntegerSequences {rt : Runtime} : TurnEvent rt → Prop
  | .deliver d => IntegerSequence rt d.envelopeBytes
  | .call env _ _ => env.IntegerSequences rt
  | _ => True

namespace Station
variable {rt : Runtime} {sink : ReadableSink}

theorem ordered_of_integerSequence {d : Delivery} (h : IntegerSequence rt d.envelopeBytes)
    (a : Agent rt sink) : d.Ordered a := by
  intro hvolatile envelope bundle hadmitted hnan
  obtain ⟨n, hn⟩ := h envelope bundle hadmitted.decoded hadmitted.payload
  rw [hn] at hnan
  cases hnan

/-- The environment of the turn under way delivers integers only. -/
def Calm (s : Station rt sink) : Prop :=
  ∀ a t stage, s.process = .busy a t stage → t.env.IntegerSequences rt

theorem Calm.idle (a : Agent rt sink) (ended : List (Turn rt sink)) : Calm ⟨.idle a, ended⟩ := by
  intro a' t stage hp
  cases hp

theorem Calm.down (epochs : EpochStore) (log : sink.State) (ended : List (Turn rt sink)) :
    Calm ⟨.down epochs log, ended⟩ := by
  intro a t stage hp
  cases hp

theorem Calm.busy {a : Agent rt sink} {t : Turn rt sink} {stage : Stage}
    {ended : List (Turn rt sink)} (h : t.env.IntegerSequences rt) :
    Calm ⟨.busy a t stage, ended⟩ := by
  intro a' t' stage' hp
  cases hp
  exact h

theorem calm_step {s : Station rt sink} (h : s.Calm) {event : TurnEvent rt}
    (hevent : event.IntegerSequences) : (s.step event).Calm := by
  have hmoves := s.moves_step event
  generalize s.step event = s' at hmoves ⊢
  cases hmoves with
  | still => exact h
  | start hinit hrecover => exact .idle _ _
  | deliver a ended d => exact .idle _ _
  | deliverBusy a t stage ended d => exact .busy (h a t stage rfl)
  | call a ended env siteId now => exact .busy hevent
  | next a t stage ended =>
    rcases stage.next t a with ⟨e | ⟨receipt, _ | stage'⟩, a'⟩
    · exact .idle _ _
    · exact .idle _ _
    · exact .busy (h a t stage rfl)
  | stop a ended => exact .down _ _ _
  | stopBusy a t stage ended => exact .down _ _ _

/-- Where the authority issues integers, as it is declared to, nothing gets out of order. -/
theorem along_of_integerSequences {events : List (TurnEvent rt)}
    (h : ∀ event ∈ events, event.IntegerSequences) (epochs : EpochStore) (log : sink.State) :
    Run.Along step Ordered (fresh epochs log : Station rt sink) events := by
  have hfresh : (fresh epochs log : Station rt sink).Calm := fun a t stage hp => by cases hp
  refine Run.Along.imp (I := Calm) (fun s event hs hevent => ⟨calm_step hs hevent, ?_⟩) hfresh
    (Run.along_of_forall h _)
  cases event with
  | deliver d => exact fun a _ => ordered_of_integerSequence hevent a
  | next =>
    intro a t stage hp
    have henv := hs a t stage hp
    have hdeliveries : ∀ d ∈ stage.deliveries t, IntegerSequence rt d.envelopeBytes := by
      cases stage with
      | pinned => exact henv.observe
      | attempting decision => exact henv.apply decision
      | applied decision => exact henv.readback decision
      | _ => exact fun d hd => (List.not_mem_nil hd).elim
    exact Run.Along.imp (I := fun _ => True)
      (fun a d _ hd => ⟨trivial, ordered_of_integerSequence hd a⟩) trivial
      (Run.along_of_forall hdeliveries a)
  | _ => trivial

end Station

theorem Agent.deliver_of_accept {rt : Runtime} {sink : ReadableSink} {a : Agent rt sink}
    {d : Delivery} {result : Except Exc WireBundle} {store : BundleStore rt} {epochs : EpochStore}
    (h : a.store.accept a.epochs d.faults d.envelopeBytes d.now = (result, store, epochs)) :
    a.deliver d = { a with store := store, epochs := epochs } := by
  rw [Agent.deliver, Agent.accept, h]

/-! ## At a site -/

namespace Sample

def startStation : TurnEvent standIn :=
  .start (standIn.publicKey signer.key) "authority-1" "site-1" signedFloor none none siteKey
    "site-1"

/-- A minute past noon. -/
def deliverBundle (sequence : Int) (nonce : UInt8) : TurnEvent standIn :=
  .deliver { envelopeBytes := envelope sequence nonce, now := clock 60 }

/-- A turn at that time, on whose decision the dataplane cannot be read back. -/
def turn : List (TurnEvent standIn) :=
  .call (environment (.ok ()) (.error ⟨.OSError, "netlink socket closed"⟩)) "site-1" (clock 60) ::
    List.replicate 6 .next

/-- The array of the sample bundle with no number for its sequence. -/
def nanFields : Value :=
  .list [.str "b1", .str "authority-1", .float .nan, .int 1787918400, .int 1787940000, .int 60,
    .list [encodeLink fiber0, encodeLink lte0], .list [encodeClass (TrafficClass.ofId "bulk")],
    .list [.list [.str "down", .str "R-DOWN"]]]

/-- What it is read as. -/
def nanBundle : WireBundle := { (bundle 11).toWire with sequence := .float .nan }

theorem decodeBundle_nan : decodeBundle standIn (.bytes (standIn.encoding nanFields)) =
    .ok nanBundle := by
  have hload : standIn.loadsValue (.bytes (standIn.encoding nanFields)) = .ok nanFields :=
    lawful_standIn.loads_dumps _ (by decide +kernel)
  rw [decodeBundle, hload]
  rfl

/-- The authority signs it all the same. -/
def nanMessage : Envelope := signed standIn msgPolicyBundle "authority-1" (clock 0)
  (List.replicate 16 1) (standIn.encoding nanFields) signer.key

def deliverNan : TurnEvent standIn :=
  .deliver { envelopeBytes := encodeEnvelope standIn nanMessage, now := clock 60 }

theorem admitted_nan {s : BundleStore standIn} {m : Int}
    (hkey : s.trustedKey = standIn.publicKey signer.key)
    (hissuer : s.expectedIssuer = "authority-1")
    (hunseen : s.seenNonces.any (·.eq (.bytes (List.replicate 16 1))) = false)
    (hsequence : s.sequence = .int m) :
    s.Admitted (encodeEnvelope standIn nanMessage) (clock 60) nanMessage nanBundle where
  decoded := by
    rw [decodeEnvelope_encodeEnvelope lawful_standIn (by decide +kernel)]
    show (clock 0).cut.map _ = _
    rw [cut_clock]
    rfl
  typed := rfl
  issued := by rw [hissuer]; rfl
  stamped := timestamp_cut_le_horizon (by decide : (clock 0).us ≤ (clock 60).us) (cut_clock 0)
  verified := by rw [hkey]; exact verify_sign lawful_standIn List.length_replicate rfl
  searchable := rfl
  unseen := hunseen
  payload := decodeBundle_nan
  authority := by rw [hissuer]; rfl
  newer := by rw [hsequence]; rfl
  valid := by
    show (clock 60).us < (clock 21600).us
    decide

/-- A site where no policy was ever accepted and nothing was written. -/
def station : Station standIn memoryReceiptSink :=
  .fresh (.memory (.int noEpoch)) ([] : List Bytes)

theorem step_startStation : ∃ floor : WireBundle, station.step startStation =
    ⟨.idle ⟨⟨standIn.publicKey signer.key, "authority-1", "site-1", floor, none, .int noEpoch, []⟩,
      .memory (.int noEpoch), .new "site-1" siteKey, ([] : List Bytes)⟩, []⟩ := by
  have hread : (EpochStore.memory (.int noEpoch)).read = .ok (.int noEpoch) := rfl
  obtain ⟨floor, hinit⟩ := init_ok hread
  exact ⟨floor, Station.step_start rfl hinit rfl⟩

/-- A store of the sample authority at a sequence, over a mark in memory. -/
structure At (sequence : Value) (nonces : List Value) (mark : Int)
    (a : Agent standIn memoryReceiptSink) : Prop where
  trustedKey : a.store.trustedKey = standIn.publicKey signer.key
  expectedIssuer : a.store.expectedIssuer = "authority-1"
  sequence : a.store.sequence = sequence
  seenNonces : a.store.seenNonces = nonces
  epochs : a.epochs = .memory (.int mark)
  counts : Counts a.chain

section Deliver
variable {a : Agent standIn memoryReceiptSink} {sequence : Value} {nonces : List Value} {m : Int}

theorem at_deliver (h : At sequence nonces m a) (n : Int) (nonce : UInt8)
    (hnewer : (Value.int n).le sequence = .ok false)
    (hunseen : nonces.any (·.eq (.bytes (List.replicate 16 nonce))) = false) :
    At (.int n) (.bytes (List.replicate 16 nonce) :: nonces) (max m n)
      (a.deliver { envelopeBytes := envelope n nonce, now := clock 60 }) ∧
    (a.deliver { envelopeBytes := envelope n nonce, now := clock 60 }).store.bundle =
      some (bundle n).toWire := by
  obtain ⟨e, hadmitted, hnonce⟩ := admitted n nonce h.trustedKey h.expectedIssuer
    (h.seenNonces ▸ hunseen) (by decide : (clock 0).us ≤ (clock 60).us)
    (by decide : (clock 60).us < (clock 21600).us) (h.sequence ▸ hnewer)
  have hcommit : a.epochs.commit {} (.int n) = (.ok (), .memory (.int (max m n))) := by
    rw [h.epochs]
    by_cases hlt : m < n
    · simp [EpochStore.commit, EpochStore.commitSteps, EpochStore.performAll, EpochStore.perform,
        hlt, max_eq_right hlt.le]
    · simp [EpochStore.commit, EpochStore.commitSteps, EpochStore.performAll, EpochStore.perform,
        hlt, max_eq_left (not_lt.mp hlt)]
  have haccept := BundleStore.accept_of_admitted hadmitted (by rw [hnonce]; rfl)
    (congrArg Prod.fst hcommit)
  have hdeliver := Agent.deliver_of_accept
    (d := { envelopeBytes := envelope n nonce, now := clock 60 }) haccept
  rw [hdeliver]
  refine ⟨⟨h.trustedKey, h.expectedIssuer, rfl, ?_, congrArg Prod.snd hcommit, h.counts⟩, rfl⟩
  rw [BundleStore.install_seenNonces, hnonce, h.seenNonces]

theorem at_deliver_nan (h : At (.int m) nonces m a)
    (hunseen : nonces.any (·.eq (.bytes (List.replicate 16 1))) = false) :
    At (.float .nan) (.bytes (List.replicate 16 1) :: nonces) m
      (a.deliver { envelopeBytes := encodeEnvelope standIn nanMessage, now := clock 60 }) := by
  have hadmitted := admitted_nan h.trustedKey h.expectedIssuer (h.seenNonces ▸ hunseen) h.sequence
  have hcommit : a.epochs.commit {} (.float .nan) = (.ok (), .memory (.int m)) := by
    rw [h.epochs]
    rfl
  have haccept := BundleStore.accept_of_admitted hadmitted rfl (congrArg Prod.fst hcommit)
  have hdeliver := Agent.deliver_of_accept
    (d := { envelopeBytes := encodeEnvelope standIn nanMessage, now := clock 60 }) haccept
  rw [hdeliver]
  refine ⟨h.trustedKey, h.expectedIssuer, rfl, ?_, congrArg Prod.snd hcommit, h.counts⟩
  rw [BundleStore.install_seenNonces, h.seenNonces]
  rfl

theorem at_current {n : Int} (hbundle : a.store.bundle = some (bundle n).toWire) :
    a.store.current (clock 60) = ((bundle n).toWire, false) := by
  have hvalid : (clock 60).us < (clock 21600).us := by decide
  exact BundleStore.current_not_degraded.mpr ⟨hbundle, hvalid⟩

/-- A turn under a sample bundle is on record. -/
theorem run_turn {s : Station standIn memoryReceiptSink} (hp : s.process = .idle a)
    (h : At sequence nonces m a) {n : Int} (hbundle : a.store.bundle = some (bundle n).toWire) :
    ∃ a' t, Run.run Station.step s turn = ⟨.idle a', s.ended ++ [t]⟩ ∧ At sequence nonces m a' ∧
      .int n ∈ t.sequences := by
  let env := environment (.ok ()) (.error ⟨.OSError, "netlink socket closed"⟩)
  have hundisturbed : Undisturbed env := ⟨rfl, fun _ => rfl, fun _ => rfl⟩
  have hcurrent := at_current hbundle
  obtain ⟨decision, hdecide⟩ : ∃ decision, decide standIn (bundle n) ⟨[upAt "fiber0" 0]⟩ (clock 60)
      "site-1" false = .ok decision := decide_returns (validUntil_minute rfl)
  have hunder : decideUnder standIn env (a.store.current (clock 60)).1 ⟨[upAt "fiber0" 0]⟩
      (clock 60) "site-1" (a.store.current (clock 60)).2 = .ok decision := by
    rw [hcurrent]
    exact decideUnder_toWire.trans hdecide
  have hready : Ready (fun lines log => lines = log) a.chain a.log a := ⟨rfl, rfl, rfl⟩
  obtain ⟨r, a₁, hrecord⟩ := hready.record_returns lawful_standIn accepting_memorySink h.counts
    { decision := decision, now := clock 60 } ⟨"", rfl⟩
  obtain ⟨-, seq, -, -, rfl⟩ := hready.written lawful_standIn lawful_memorySink hrecord
  obtain ⟨receipts, hrun⟩ := Station.run_turn_decided hp rfl hunder hrecord
  have hsame : SameMark a (runOnce env "site-1" (clock 60) a).2 :=
    runOnce_within hundisturbed (fun _ => ⟨rfl, rfl⟩) .trans (fun _ _ => ⟨rfl, rfl⟩) a
  have hcounts : Counts (runOnce env "site-1" (clock 60) a).2.chain :=
    runOnce_within (R := fun a b => Counts a.chain → Counts b.chain) hundisturbed (fun _ => id)
      (fun hab hbc h => hbc (hab h)) (fun entry _ h => h.recordEntry lawful_standIn entry) a
      h.counts
  refine ⟨_, _, hrun, ?_, List.mem_map.mpr ⟨_, List.mem_filter.mpr ⟨List.mem_cons_self, ?_⟩, ?_⟩⟩
  · exact ⟨hsame.1 ▸ h.trustedKey, hsame.1 ▸ h.expectedIssuer, hsame.1 ▸ h.sequence,
      hsame.1 ▸ h.seenNonces, hsame.2 ▸ h.epochs, hcounts⟩
  · rw [Bool.not_eq_true']
    exact (decide_ok hdecide).2.2.2.2.2.1
  · rw [Turn.pinned, hcurrent]
    rfl

end Deliver

/-- A process is started, and its first bundle governs. -/
theorem run_delivered : ∃ a, Run.run Station.step station [startStation, deliverBundle 10 0] =
      ⟨.idle a, []⟩ ∧ At (.int 10) [.bytes (List.replicate 16 0)] 10 a ∧
    a.store.bundle = some (bundle 10).toWire := by
  obtain ⟨floor, hstart⟩ := step_startStation
  let a₀ : Agent standIn memoryReceiptSink :=
    ⟨⟨standIn.publicKey signer.key, "authority-1", "site-1", floor, none, .int noEpoch, []⟩,
      .memory (.int noEpoch), .new "site-1" siteKey, ([] : List Bytes)⟩
  have h₀ : At (.int noEpoch) [] noEpoch a₀ := ⟨rfl, rfl, rfl, rfl, rfl, .int 1, rfl⟩
  refine ⟨a₀.deliver { envelopeBytes := envelope 10 0, now := clock 60 }, ?_,
    at_deliver h₀ 10 0 (by decide) rfl⟩
  rw [Run.run_cons, Run.run_cons, Run.run_nil, hstart]
  exact Station.step_deliver rfl _

/-- Two turns: before the second a bundle with no number for its sequence is delivered, and then
one with a lower sequence. -/
def goingBack : List (TurnEvent standIn) :=
  [startStation, deliverBundle 10 0] ++ turn ++ [deliverNan, deliverBundle 3 2] ++ turn

theorem run_goingBack : ∃ a first second, Run.run Station.step station goingBack =
      ⟨.idle a, [first, second]⟩ ∧ .int 10 ∈ first.sequences ∧ .int 3 ∈ second.sequences := by
  -- what each delivery and each turn leaves is named before the next step is looked at
  obtain ⟨a₁, hdelivered, h₁, hbundle₁⟩ := run_delivered
  obtain ⟨a₂, first, hfirst, h₂, hten⟩ := run_turn (s := ⟨.idle a₁, []⟩) rfl h₁ hbundle₁
  have h₃ := at_deliver_nan h₂ rfl
  obtain ⟨h₄, hbundle₄⟩ := at_deliver h₃ 3 2 rfl rfl
  have hredelivered : Run.run Station.step ⟨.idle a₂, [first]⟩ [deliverNan, deliverBundle 3 2] =
      ⟨.idle ((a₂.deliver
        { envelopeBytes := encodeEnvelope standIn nanMessage, now := clock 60 }).deliver
        { envelopeBytes := envelope 3 2, now := clock 60 }), [first]⟩ := by
    rw [Run.run_cons, Run.run_cons, Run.run_nil, deliverNan, Station.step_deliver rfl]
    exact Station.step_deliver rfl _
  generalize (a₂.deliver _).deliver _ = a₄ at h₄ hbundle₄ hredelivered
  obtain ⟨a₅, second, hsecond, -, hthree⟩ := run_turn (s := ⟨.idle a₄, [first]⟩) rfl h₄ hbundle₄
  refine ⟨a₅, first, second, ?_, hten, hthree⟩
  rw [goingBack, Run.run_append, Run.run_append, Run.run_append, hdelivered, hfirst]
  exact (congrArg (fun s => Run.run Station.step s turn) hredelivered).trans hsecond

end Sample

/-- The site is back under an older policy, and the log says so. -/
theorem log_goes_back : ¬(Run.run Station.step Sample.station Sample.goingBack).sequences.Pairwise
    fun v w => w.lt v ≠ .ok true := by
  obtain ⟨a, first, second, hrun, hten, hthree⟩ := Sample.run_goingBack
  rw [hrun]
  intro hsorted
  have hturns := (List.pairwise_flatMap.mp hsorted).2
  exact List.rel_of_pairwise_cons hturns (List.mem_singleton_self second) _ hten _ hthree
    (Value.lt_int 3 10)

/-- A bundle lands in the middle of a turn, and a new process takes another turn. -/
theorem one_policy_per_turn_sample :
    let env := Sample.environment (.ok ()) (.error ⟨.OSError, "netlink socket closed"⟩)
    let events := [Sample.startStation, Sample.deliverBundle 10 0,
      .call env "site-1" (Sample.clock 60), .next, Sample.deliverBundle 11 1, .next, .next, .next,
      .stop, Sample.startStation] ++ Sample.turn
    let s := Run.run Station.step Sample.station events
    s.log = [] ++ s.turns.flatMap Turn.lines ∧ (∀ t ∈ s.turns, t.OnePolicy) ∧
      s.sequences.Pairwise fun v w => w.lt v ≠ .ok true := by
  intro env events
  have hdeliver (n : Int) (nonce : UInt8) : (Sample.deliverBundle n nonce).IntegerSequences :=
    integerSequence_publish lawful_standIn List.length_replicate (Sample.publish_bundle n nonce)
  have hcall (applied : Except Exc Unit) (readback : Except Exc Mapping) :
      (Sample.environment applied readback).IntegerSequences standIn :=
    ⟨fun d hd => (List.not_mem_nil hd).elim, fun _ d hd => (List.not_mem_nil hd).elim,
      fun _ d hd => (List.not_mem_nil hd).elim⟩
  have hevents : ∀ event ∈ events, event.IntegerSequences := by
    simp only [events, List.forall_mem_append, List.forall_mem_cons, hdeliver]
    simp [Sample.turn, Sample.startStation, TurnEvent.IntegerSequences, hcall, env]
  have hmark : IntegerMark (.memory (.int noEpoch)) := by
    rintro v ⟨⟩
    exact ⟨noEpoch, rfl⟩
  exact one_policy_per_turn lawful_standIn lawful_memorySink hmark rfl
    (Station.along_of_integerSequences hevents _ _)

end Pilotfish
