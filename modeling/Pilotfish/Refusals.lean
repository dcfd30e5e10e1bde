import Pilotfish.Signer

/-!
# What a refusal leaves behind

`accept` raises from a dozen places: where the envelope is decoded, where it is verified, where the
nonce is looked up and put on record, where the payload is decoded, and where a sequence is
compared.

Results:
1. `accept_of_bare`, `outcomes_of_bare`: temporary files that were left behind do not matter.
2. `noTrace_iff`: an exception leaves the store and the mark as they were unless it is raised for
   a nonce that cannot be put on record, with the mark already moved.
-/

namespace Pilotfish
open Python

/-! ## No trace -/

namespace BundleStore
variable {rt : Runtime}

/-- What later calls return or raise. -/
def outcomes (s : BundleStore rt) (epochs : EpochStore) :
    List Delivery → List (Except Exc WireBundle)
  | [] => []
  | d :: ds =>
      let (result, s', epochs') := s.accept epochs d.faults d.envelopeBytes d.now
      result :: outcomes s' epochs' ds

/-- The store and its mark are what they were, and every later call does what it would have
done. -/
structure NoTrace (s : BundleStore rt) (epochs : EpochStore) (s' : BundleStore rt)
    (epochs' : EpochStore) : Prop where
  store : s' = s
  mark : epochs'.bare = epochs.bare
  later : ∀ deliveries, s'.outcomes epochs' deliveries = s.outcomes epochs deliveries
  current : ∀ now, s'.current now = s.current now

section
variable {epochs epochs' : EpochStore}

/-- Temporary files that were left behind do not matter to a call. -/
theorem accept_of_bare (h : epochs.bare = epochs'.bare) (s : BundleStore rt) (faults : EpochFaults)
    (envelopeBytes : Bytes) (now : DateTime) :
    (s.accept epochs faults envelopeBytes now).1 = (s.accept epochs' faults envelopeBytes now).1 ∧
    (s.accept epochs faults envelopeBytes now).2.1 =
      (s.accept epochs' faults envelopeBytes now).2.1 ∧
    (s.accept epochs faults envelopeBytes now).2.2.bare =
      (s.accept epochs' faults envelopeBytes now).2.2.bare := by
  unfold accept
  cases s.vet envelopeBytes now with
  | error e => exact ⟨rfl, rfl, h⟩
  | ok admitted =>
    obtain ⟨bundle, nonce⟩ := admitted
    dsimp only
    obtain ⟨hresult, hbare⟩ := EpochStore.commit_of_bare h faults bundle.sequence
    rcases hc : epochs.commit faults bundle.sequence with ⟨result, left⟩
    rcases hc' : epochs'.commit faults bundle.sequence with ⟨result', left'⟩
    rw [hc, hc'] at hresult hbare
    obtain rfl : result = result' := hresult
    cases result with
    | error e => exact ⟨rfl, rfl, hbare⟩
    | ok u => cases nonce.hashable <;> exact ⟨rfl, rfl, hbare⟩

theorem outcomes_of_bare (h : epochs.bare = epochs'.bare) (s : BundleStore rt)
    (deliveries : List Delivery) : s.outcomes epochs deliveries = s.outcomes epochs' deliveries := by
  induction deliveries generalizing s epochs epochs' with
  | nil => rfl
  | cons d ds ih =>
    obtain ⟨hresult, hstore, hbare⟩ := accept_of_bare h s d.faults d.envelopeBytes d.now
    simp only [outcomes]
    rw [hresult, hstore, ih hbare]

theorem NoTrace.of_bare {s : BundleStore rt} (h : epochs'.bare = epochs.bare) :
    s.NoTrace epochs s epochs' := ⟨rfl, h, outcomes_of_bare h s, fun _ => rfl⟩

end

/-- What can be looked up in a set and not be put into one is a set itself. -/
theorem set_of_unhashable {v : Value} {e : Exc} (hsearch : v.searchable = .ok ())
    (hhash : v.hashable = .error e) : ∃ xs, v = .set xs := by
  cases v with
  | set xs => exact ⟨xs, rfl⟩
  | _ => simp [Value.searchable, hhash] at hsearch

/-- The bundle passes every check, its mark is moved, and its nonce is a set. -/
def Lost (s : BundleStore rt) (epochs : EpochStore) (faults : EpochFaults) (envelopeBytes : Bytes)
    (now : DateTime) : Prop :=
  ∃ envelope bundle xs, s.Admitted envelopeBytes now envelope bundle ∧ envelope.nonce = .set xs ∧
    epochs.Moves faults bundle.sequence

/-- A refused bundle changes nothing unless it is one whose nonce is a set. -/
theorem noTrace_iff (s : BundleStore rt) (epochs : EpochStore) (faults : EpochFaults)
    (envelopeBytes : Bytes) (now : DateTime) :
    (∀ e, (s.accept epochs faults envelopeBytes now).1 = .error e →
      s.NoTrace epochs (s.accept epochs faults envelopeBytes now).2.1
        (s.accept epochs faults envelopeBytes now).2.2) ↔
    ¬s.Lost epochs faults envelopeBytes now := by
  constructor
  · rintro h ⟨envelope, bundle, xs, admitted, hset, hmoves⟩
    obtain ⟨x, -, hnumber, -⟩ := Value.number_of_le admitted.newer
    obtain ⟨hcommit, hmarked⟩ := EpochStore.commit_of_moves hmoves
    have haccept := accept_of_committed admitted hcommit
    rw [hset] at haccept
    have htrace := h _ (congrArg Prod.fst haccept)
    rw [haccept] at htrace
    exact EpochStore.marked_ne_bare hnumber hmoves (hmarked.symm.trans htrace.mark)
  · intro hkept e he
    generalize hr : s.accept epochs faults envelopeBytes now = r at he ⊢
    have hcases := accept_cases s epochs faults envelopeBytes now
    rw [hr] at hcases
    cases hcases with
    | refused e => exact .of_bare rfl
    | uncommitted envelope bundle e admitted failed =>
      refine .of_bare (EpochStore.bare_commit_of_not_moves ?_)
      intro hmoves
      rw [(EpochStore.commit_of_moves hmoves).1] at failed
      cases failed
    | unrecorded envelope bundle e admitted committed unhashable =>
      obtain ⟨xs, hset⟩ := set_of_unhashable admitted.searchable unhashable
      exact .of_bare (EpochStore.bare_commit_of_not_moves fun hmoves =>
        hkept ⟨envelope, bundle, xs, admitted, hset, hmoves⟩)
    | installed envelope bundle admitted committed hashable => cases he

end BundleStore

namespace Sample

def sixteen : List Value := (List.range 16).map fun n => .int n

/-- Sixteen integers in a set, which can be measured and looked up. -/
def setNonce : Value := .set sixteen

/-- What the authority signs with such a nonce. -/
def unrecordable : Envelope where
  msgType := .str msgPolicyBundle
  issuer := .str "authority-1"
  issuedAt := clock 0
  nonce := setNonce
  payload := .bytes (encodeBundle standIn (bundle 1))
  signature := .bytes (standIn.sign signer.key (standIn.encoding (.list [.str msgPolicyBundle,
    .str "authority-1", ts (clock 0), setNonce, .bytes (encodeBundle standIn (bundle 1))])))

theorem decodes_setNonce : Cbor.Decodes 50 setNonce := by
  have hset : Cbor.Decodes (Cbor.weight (.list sixteen) + 1) (.set sixteen) :=
    Cbor.decodes_set rfl (by decide +kernel) rfl
  exact hset.more (by decide)

theorem decodeEnvelope_unrecordable :
    decodeEnvelope standIn (encodeEnvelope standIn unrecordable) = .ok unrecordable := by
  have hload : standIn.loads (encodeEnvelope standIn unrecordable) = .ok unrecordable.fields := by
    refine Cbor.loads_list 50 (fun x hx => ?_) (by decide +kernel)
    simp only [unrecordable, List.mem_cons, List.not_mem_nil, or_false] at hx
    rcases hx with rfl | rfl | rfl | rfl | rfl | rfl
    · exact (Cbor.decodes_plain rfl).more (by decide)
    · exact (Cbor.decodes_plain rfl).more (by decide)
    · exact (Cbor.decodes_plain rfl).more (by decide)
    · exact decodes_setNonce
    · exact (Cbor.decodes_plain rfl).more (by decide)
    · exact (Cbor.decodes_plain rfl).more (by decide)
  rw [decodeEnvelope_of_loads hload]
  show (clock 0).cut.map _ = _
  rw [cut_clock]
  rfl

theorem verify_unrecordable :
    verify standIn unrecordable (standIn.publicKey signer.key) = .ok () :=
  verify_of_signed lawful_standIn rfl rfl

theorem admitted_unrecordable {s : BundleStore standIn}
    (hkey : s.trustedKey = standIn.publicKey signer.key) (hissuer : s.expectedIssuer = "authority-1")
    (hsequence : s.sequence = .int noEpoch) (hnonces : s.seenNonces = []) :
    s.Admitted (encodeEnvelope standIn unrecordable) (clock 60) unrecordable (bundle 1).toWire where
  decoded := decodeEnvelope_unrecordable
  typed := rfl
  issued := by rw [hissuer]; rfl
  stamped := timestamp_cut_le_horizon (by decide : (clock 0).us ≤ (clock 60).us) (cut_clock 0)
  verified := by rw [hkey]; exact verify_unrecordable
  searchable := rfl
  unseen := by rw [hnonces]; rfl
  payload := by
    show decodeBundle standIn (.bytes (encodeBundle standIn (bundle 1))) = _
    rw [decodeBundle_encodeBundle lawful_standIn, cut_bundle]
    rfl
  authority := by rw [hissuer]; rfl
  newer := by
    rw [hsequence]
    exact Value.le_int 1 noEpoch
  valid := by
    show (clock 60).us < (clock 21600).us
    decide

end Sample

/-- The exception leaves the store as it was and the mark at the refused sequence. -/
theorem unrecordable_moves_mark : ∃ s : BundleStore standIn,
    BundleStore.init (standIn.publicKey Sample.signer.key) "authority-1" "site-1"
      Sample.signedFloor none (.file ⟨"epoch", none, []⟩) none = .ok s ∧
    s.accept (.file ⟨"epoch", none, []⟩) {} (encodeEnvelope standIn Sample.unrecordable)
      (Sample.clock 60) =
        (.error ⟨.TypeError, "unhashable type: 'set'"⟩, s, .file ⟨"epoch", some ['1', '\n'], []⟩) ∧
    ¬s.NoTrace (.file ⟨"epoch", none, []⟩) s (.file ⟨"epoch", some ['1', '\n'], []⟩) := by
  have hread : (EpochStore.file ⟨"epoch", none, []⟩).read = .ok (.int noEpoch) := rfl
  obtain ⟨floor, hinit⟩ := Sample.init_ok hread
  refine ⟨_, hinit, ?_, fun htrace => ?_⟩
  · have hmoves : (EpochStore.file ⟨"epoch", none, []⟩).Moves {} (.int 1) :=
      ⟨⟨_, hread, Value.le_int 1 noEpoch⟩, by decide +kernel, rfl, rfl, rfl, rfl⟩
    have hcommit := EpochStore.commit_file_of_moves hmoves
    refine (BundleStore.accept_of_committed (Sample.admitted_unrecordable rfl rfl rfl rfl)
      (congrArg Prod.fst hcommit)).trans ?_
    show (_, _, ((EpochStore.file ⟨"epoch", none, []⟩).commit {} (.int 1)).2) = _
    rw [hcommit]
    rfl
  · have hmark := congrArg EpochStore.read htrace.mark
    have hmoved : (EpochStore.file ⟨"epoch", some ['1', '\n'], []⟩).read = .ok (.int 1) :=
      EpochStore.read_file_mark (by decide +kernel) rfl
    cases hmark.symm.trans hmoved

end Pilotfish
