import Pilotfish.Rollback
import Pilotfish.SignatureCover

/-!
# One authority and its sites

An authority publishes bundles and signs floors for any number of sites. What reaches a site is any
bytes at all, in any order and as often as anyone likes; its processes start, raise and are killed.
Nobody else can sign for the authority.

Results:
1. `Site.step_outcome`: all that a step does to a process and to the history of its site.
2. `admitted_order`: what a site admits the authority was asked to publish.
3. `sites_agree`: every site installs some of the published bundles, in the order of their
   publication, and sites that govern by one sequence govern by one policy.
-/

namespace Pilotfish
open Python

/-! ## What the authority signs -/

/-- What an authority is asked to sign. -/
inductive Order
  | bundle (bundle : PolicyBundle) (now : DateTime) (nonce : Bytes)
  | floor (siteId : String) (links : List Link) (classes : List TrafficClass) (now : DateTime)
      (nonce : Bytes)

namespace Order
variable {rt : Runtime} {signer : BundleSigner rt}

/-- The envelope it sends out. -/
def issue (signer : BundleSigner rt) : Order → Except Exc Bytes
  | bundle b now nonce => signer.publish b now nonce
  | floor siteId links classes now nonce => signFloor signer siteId links classes now nonce

/-- The envelope that is signed for an order. -/
inductive Signs (signer : BundleSigner rt) : Order → Envelope → Prop
  | bundle {b : PolicyBundle} {now : DateTime} {nonce : Bytes} {envelope : Envelope}
      (signed : sign rt msgPolicyBundle signer.issuer now nonce (encodeBundle rt b) signer.key =
        .ok envelope) : Signs signer (.bundle b now nonce) envelope
  | floor {siteId : String} {links : List Link} {classes : List TrafficClass} {now : DateTime}
      {nonce : Bytes} {envelope : Envelope} {floor : PolicyBundle} {inventoryHash : String}
      (made : floorBundle links (some now) signer.issuer (some classes) = .ok floor)
      (hashed : linkInventoryHash rt links = .ok inventoryHash)
      (signed : sign rt msgFloorConfig signer.issuer now nonce
        (encodeFloorConfig rt siteId inventoryHash floor) signer.key = .ok envelope) :
      Signs signer (.floor siteId links classes now nonce) envelope

/-- The envelopes that are sent out are those that are signed. -/
theorem issue_eq_ok {order : Order} {envelopeBytes : Bytes} :
    order.issue signer = .ok envelopeBytes ↔
    ∃ envelope, order.Signs signer envelope ∧ envelopeBytes = encodeEnvelope rt envelope := by
  cases order with
  | bundle b now nonce =>
    constructor
    · intro h
      obtain ⟨envelope, hsigned, h⟩ := bind_eq_ok_iff.mp h
      exact ⟨envelope, .bundle hsigned, (Except.ok.inj h).symm⟩
    · rintro ⟨envelope, ⟨hsigned⟩, rfl⟩
      exact bind_eq_ok_iff.mpr ⟨envelope, hsigned, rfl⟩
  | floor siteId links classes now nonce =>
    constructor
    · intro h
      obtain ⟨floor, hmade, h⟩ := bind_eq_ok_iff.mp h
      obtain ⟨inventoryHash, hhashed, h⟩ := bind_eq_ok_iff.mp h
      obtain ⟨envelope, hsigned, h⟩ := bind_eq_ok_iff.mp h
      exact ⟨envelope, .floor hmade hhashed hsigned, (Except.ok.inj h).symm⟩
    · rintro ⟨envelope, hsigns, rfl⟩
      cases hsigns with
      | floor hmade hhashed hsigned =>
        exact bind_eq_ok_iff.mpr ⟨_, hmade, bind_eq_ok_iff.mpr ⟨_, hhashed,
          bind_eq_ok_iff.mpr ⟨envelope, hsigned, rfl⟩⟩⟩

/-- The bundle that is published, as it is read off the wire. -/
def wire? : Order → Option WireBundle
  | bundle b _ _ => b.cut.toOption.map PolicyBundle.toWire
  | floor _ _ _ _ _ => none

def sequence? : Order → Option Int
  | bundle b _ _ => some b.sequence
  | floor _ _ _ _ _ => none

/-- Bundles are numbered up from the one to the other. -/
def Below (earlier later : Order) : Prop :=
  ∀ m n, earlier.sequence? = some m → later.sequence? = some n → m < n

end Order

/-- The published bundles in their order. -/
def published (issued : List Order) : List WireBundle := issued.filterMap Order.wire?

/-- What was signed as the floor of a site reads as this. -/
def FloorSigned (issuer : String) (issued : List Order) (siteId : String) (w : WireBundle) : Prop :=
  ∃ links classes now nonce floor c, Order.floor siteId links classes now nonce ∈ issued ∧
    floorBundle links (some now) issuer (some classes) = .ok floor ∧ floor.cut = .ok c ∧ w = c.toWire

/-! ## The network -/

structure Network (rt : Runtime) (ι : Type) where
  issued : List Order
  sites : ι → Site rt

inductive NetworkEvent (rt : Runtime) (ι : Type)
  | issue (order : Order)
  | site (i : ι) (event : SiteEvent rt)

/-- Nobody else signs for the authority, and nothing else encodes as what it signed. -/
structure Unforged {rt : Runtime} (signer : BundleSigner rt) (issued : List Order)
    (envelopeBytes : Bytes) : Prop where
  signed : ∀ envelope signature, decodeEnvelope rt envelopeBytes = .ok envelope →
    rt.verifies (rt.publicKey signer.key) signature (rt.encoding envelope.covered) = true →
    ∃ order ∈ issued, ∃ own : Envelope, order.Signs signer own ∧
      rt.encoding own.covered = rt.encoding envelope.covered
  injective : ∀ envelope, decodeEnvelope rt envelopeBytes = .ok envelope → ∀ order ∈ issued,
    ∀ own : Envelope, order.Signs signer own →
    rt.encoding own.covered = rt.encoding envelope.covered → own.covered = envelope.covered

namespace Network
variable {rt : Runtime} {ι : Type} [DecidableEq ι]

/-- Nothing is signed, and no process has run. -/
def fresh (epochs : ι → EpochStore) : Network rt ι := ⟨[], fun i => Site.fresh (epochs i)⟩

def step (signer : BundleSigner rt) (net : Network rt ι) : NetworkEvent rt ι → Network rt ι
  | .issue order =>
      match order.issue signer with
      | .ok _ => { net with issued := net.issued ++ [order] }
      | .error _ => net
  | .site i event => { net with sites := Function.update net.sites i ((net.sites i).step event) }

end Network

/-! ## What a step does to a site -/

/-- What a site was given to accept. -/
def SiteEvent.delivery? {rt : Runtime} : SiteEvent rt → Option (Bytes × DateTime)
  | .accept envelopeBytes now _ => some (envelopeBytes, now)
  | .crashInAccept envelopeBytes now _ _ => some (envelopeBytes, now)
  | _ => none

/-- All a step does to the process and to the history. -/
inductive Site.Outcome {rt : Runtime} (s : Site rt) (event : SiteEvent rt) (s' : Site rt) : Prop
  /-- Nothing was installed, and no process came up. -/
  | idle (live : s'.live = none ∨ s'.live = s.live) (installed : s'.installed = s.installed)
  /-- A process came up. -/
  | started (trustedKey : rt.PublicKey) (expectedIssuer siteId : String) (signedFloor : Bytes)
      (floorLinks : Option (List Link)) (readFault : Option Exc) (store : BundleStore rt)
      (event_eq : event = .start trustedKey expectedIssuer siteId signedFloor floorLinks readFault)
      (init : BundleStore.init trustedKey expectedIssuer siteId signedFloor floorLinks s.epochs
        readFault = .ok store)
      (live : s'.live = some store) (installed : s'.installed = s.installed)
  /-- What was admitted was installed, and may be the last thing that the process did. -/
  | took (store : BundleStore rt) (envelopeBytes : Bytes) (now : DateTime) (envelope : Envelope)
      (w : WireBundle) (delivered : event.delivery? = some (envelopeBytes, now))
      (before : s.live = some store) (admitted : store.Admitted envelopeBytes now envelope w)
      (live : s'.live = none ∨ s'.live = some (store.install w envelope.nonce))
      (installed : s'.installed = s.installed ++ [w])

namespace Site
variable {rt : Runtime}

theorem step_outcome (s : Site rt) (event : SiteEvent rt) : s.Outcome event (s.step event) := by
  cases event with
  | start trustedKey expectedIssuer siteId signedFloor floorLinks readFault =>
    simp only [step]
    cases hlive : s.live with
    | some store => exact .idle (.inr rfl) rfl
    | none =>
      cases hinit : BundleStore.init trustedKey expectedIssuer siteId signedFloor floorLinks s.epochs
        readFault with
      | error e => exact .idle (.inl rfl) rfl
      | ok store =>
        exact .started trustedKey expectedIssuer siteId signedFloor floorLinks readFault store rfl
          hinit rfl rfl
  | crash => exact .idle (.inl rfl) rfl
  | accept envelopeBytes now faults =>
    simp only [step]
    cases hlive : s.live with
    | none => exact .idle (.inr rfl) rfl
    | some store =>
      dsimp only
      generalize hr : store.accept s.epochs faults envelopeBytes now = r
      have hcases := BundleStore.accept_cases store s.epochs faults envelopeBytes now
      rw [hr] at hcases
      cases hcases with
      | refused e => exact .idle (.inr hlive.symm) (List.append_nil _)
      | uncommitted envelope bundle e admitted failed =>
        exact .idle (.inr hlive.symm) (List.append_nil _)
      | unrecorded envelope bundle e admitted committed unhashable =>
        exact .idle (.inr hlive.symm) (List.append_nil _)
      | installed envelope bundle admitted committed hashable =>
        exact .took store envelopeBytes now envelope bundle rfl hlive admitted (.inr rfl) rfl
  | crashInAccept envelopeBytes now faults performed =>
    simp only [step]
    cases hlive : s.live with
    | none => exact .idle (.inr rfl) rfl
    | some store =>
      dsimp only
      cases hvet : store.vet envelopeBytes now with
      | error e => exact .idle (.inl rfl) rfl
      | ok admitted =>
        obtain ⟨w, nonce⟩ := admitted
        obtain ⟨envelope, hadmitted, -⟩ := BundleStore.vet_ok.mp hvet
        dsimp only [killed]
        split_ifs with hdone
        · exact .took store envelopeBytes now envelope w rfl hlive hadmitted (.inl rfl) rfl
        · exact .idle (.inl rfl) rfl

end Site

/-! ## What arrives verified -/

section Verified
variable {rt : Runtime} (laws : rt.Lawful) {signer : BundleSigner rt} {issued : List Order}
  {envelopeBytes : Bytes}

theorem mem_published {w : WireBundle} : w ∈ published issued ↔
    ∃ b now nonce c, Order.bundle b now nonce ∈ issued ∧ b.cut = .ok c ∧ w = c.toWire := by
  rw [published, List.mem_filterMap]
  constructor
  · rintro ⟨order, horder, hw⟩
    cases order with
    | bundle b now nonce =>
      simp only [Order.wire?] at hw
      cases hcut : b.cut with
      | error e =>
        rw [hcut] at hw
        cases hw
      | ok c =>
        rw [hcut] at hw
        exact ⟨b, now, nonce, c, horder, hcut, (Option.some.inj hw).symm⟩
    | floor siteId links classes now nonce => cases hw
  · rintro ⟨b, now, nonce, c, horder, hcut, rfl⟩
    exact ⟨_, horder, by rw [Order.wire?, hcut]; rfl⟩

/-- What verifies covers what some order covers. -/
theorem covered_issued (h : Unforged signer issued envelopeBytes) {envelope : Envelope}
    (hdecoded : decodeEnvelope rt envelopeBytes = .ok envelope)
    (hverified : verify rt envelope (rt.publicKey signer.key) = .ok ()) :
    ∃ order ∈ issued, ∃ own : Envelope, order.Signs signer own ∧ own.covered = envelope.covered := by
  obtain ⟨signature, -, hsignature⟩ := verify_covered hverified
  obtain ⟨order, horder, own, hsigns, hdumps⟩ := h.signed envelope signature hdecoded hsignature
  exact ⟨order, horder, own, hsigns, h.injective envelope hdecoded order horder own hsigns hdumps⟩

theorem covered_eq {own envelope : Envelope} (h : own.covered = envelope.covered) :
    own.msgType = envelope.msgType ∧ own.nonce = envelope.nonce ∧
      own.payload = envelope.payload := by
  obtain ⟨hmsgType, h⟩ := List.cons.inj (Value.list.inj h)
  obtain ⟨-, h⟩ := List.cons.inj h
  obtain ⟨-, h⟩ := List.cons.inj h
  obtain ⟨hnonce, h⟩ := List.cons.inj h
  exact ⟨hmsgType, hnonce, (List.cons.inj h).1⟩

include laws

/-- What a site admits is a bundle that the authority was asked to publish. -/
theorem admitted_order (h : Unforged signer issued envelopeBytes) {store : BundleStore rt}
    (htrusted : store.trustedKey = rt.publicKey signer.key) {now : DateTime} {envelope : Envelope}
    {w : WireBundle} (hadmitted : store.Admitted envelopeBytes now envelope w) :
    ∃ b issue nonce c, Order.bundle b issue nonce ∈ issued ∧ b.cut = .ok c ∧ w = c.toWire ∧
      envelope.nonce = .bytes nonce := by
  obtain ⟨order, horder, own, hsigns, hcovered⟩ :=
    covered_issued h hadmitted.decoded (htrusted ▸ hadmitted.verified)
  obtain ⟨hmsgType, hnonce, hpayload⟩ := covered_eq hcovered
  cases hsigns with
  | bundle hsigned =>
    obtain ⟨-, rfl⟩ := sign_eq_ok.mp hsigned
    have hread := hadmitted.payload
    rw [← hpayload] at hread
    obtain ⟨c, hcut, rfl⟩ := map_eq_ok_iff.mp ((decodeBundle_encodeBundle laws _).symm.trans hread)
    exact ⟨_, _, _, c, horder, hcut, rfl, hnonce.symm⟩
  | floor made hashed hsigned =>
    obtain ⟨-, rfl⟩ := sign_eq_ok.mp hsigned
    exact absurd (Value.str.inj (hmsgType.trans hadmitted.typed)) (by decide)

theorem admitted_issued (h : Unforged signer issued envelopeBytes) {store : BundleStore rt}
    (htrusted : store.trustedKey = rt.publicKey signer.key) {now : DateTime} {envelope : Envelope}
    {w : WireBundle} (hadmitted : store.Admitted envelopeBytes now envelope w) :
    w ∈ published issued := by
  obtain ⟨b, issue, nonce, c, horder, hcut, hw, -⟩ := admitted_order laws h htrusted hadmitted
  exact mem_published.mpr ⟨b, issue, nonce, c, horder, hcut, hw⟩

/-- What a site installs as its floor was signed for it. -/
theorem floor_issued (h : Unforged signer issued envelopeBytes) {siteId : String}
    {floorLinks : Option (List Link)} {w : WireBundle}
    (hinstalled : installFloor (rt.publicKey signer.key) signer.issuer siteId envelopeBytes
      floorLinks = .ok w) : FloorSigned signer.issuer issued siteId w := by
  obtain ⟨envelope, hfloor⟩ := BundleStore.installFloor_ok.mp hinstalled
  obtain ⟨order, horder, own, hsigns, hcovered⟩ :=
    covered_issued h hfloor.decoded hfloor.verified
  obtain ⟨hmsgType, -, hpayload⟩ := covered_eq hcovered
  cases hsigns with
  | bundle hsigned =>
    obtain ⟨-, rfl⟩ := sign_eq_ok.mp hsigned
    exact absurd (Value.str.inj (hmsgType.trans hfloor.typed)) (by decide)
  | floor made hashed hsigned =>
    obtain ⟨-, rfl⟩ := sign_eq_ok.mp hsigned
    obtain ⟨inventoryHash, hread, -⟩ := hfloor.bound
    rw [← hpayload] at hread
    obtain ⟨c, hcut, hread⟩ :=
      map_eq_ok_iff.mp ((decodeFloorConfig_encodeFloorConfig laws _ _ _).symm.trans hread)
    obtain ⟨hsite, hrest⟩ := Prod.mk.inj hread
    obtain ⟨-, hw⟩ := Prod.mk.inj hrest
    obtain rfl := Value.str.inj hsite
    exact ⟨_, _, _, _, _, c, horder, made, hcut, hw.symm⟩

omit laws in
/-- What is signed is made of scalars. -/
theorem plain_signs {order : Order} {own : Envelope} (h : order.Signs signer own) :
    own.fields.plain = true ∧ own.covered.plain = true := by
  cases h with
  | bundle hsigned =>
    obtain ⟨-, rfl⟩ := sign_eq_ok.mp hsigned
    exact ⟨plain_signed, rfl⟩
  | floor made hashed hsigned =>
    obtain ⟨-, rfl⟩ := sign_eq_ok.mp hsigned
    exact ⟨plain_signed, rfl⟩

/-- What the authority sent out is not forged. -/
theorem unforged_issued {order : Order} (horder : order ∈ issued)
    (hissue : order.issue signer = .ok envelopeBytes) : Unforged signer issued envelopeBytes := by
  obtain ⟨own, hsigns, rfl⟩ := Order.issue_eq_ok.mp hissue
  have hcovered : ∀ envelope, decodeEnvelope rt (encodeEnvelope rt own) = .ok envelope →
      envelope.covered = own.covered := by
    intro envelope hdecoded
    rw [decodeEnvelope_encodeEnvelope laws (plain_signs hsigns).1] at hdecoded
    obtain ⟨t, ht, rfl⟩ := map_eq_ok_iff.mp hdecoded
    show Value.list [own.msgType, own.issuer, ts t, own.nonce, own.payload] = _
    rw [ts, DateTime.cut_seconds ht]
    rfl
  refine ⟨?_, ?_⟩
  · intro envelope signature hdecoded hverified
    exact ⟨order, horder, own, hsigns, by rw [hcovered envelope hdecoded]⟩
  · intro envelope hdecoded order' _ own' hsigns' hdumps
    rw [hcovered envelope hdecoded] at hdumps ⊢
    have hread := laws.loads_dumps _ (plain_signs hsigns').2
    rw [hdumps, laws.loads_dumps _ (plain_signs hsigns).2] at hread
    exact (Except.ok.inj hread).symm

end Verified

/-! ## What holds of every site -/

namespace Site
variable {rt : Runtime} {s : Site rt} {base low m : Int}

theorem integerSequence_of_admitted {store : BundleStore rt} {envelopeBytes : Bytes}
    {now : DateTime} {envelope : Envelope} {w : WireBundle}
    (h : store.Admitted envelopeBytes now envelope w) {n : Int} (hn : w.sequence = .int n) :
    IntegerSequence rt envelopeBytes := by
  intro envelope' w' hdecoded hpayload
  obtain rfl := Except.ok.inj (hdecoded.symm.trans h.decoded)
  obtain rfl := Except.ok.inj (hpayload.symm.trans h.payload)
  exact ⟨n, hn⟩

/-- A site stays in order if what it admits is numbered. What it refuses may be numbered in any
way. -/
theorem marked_of_admitted (h : s.Marked base low m) (event : SiteEvent rt)
    (hint : ∀ store envelopeBytes now envelope w, event.delivery? = some (envelopeBytes, now) →
      s.live = some store → store.Admitted envelopeBytes now envelope w → ∃ n, w.sequence = .int n) :
    ∃ m', Marked base low (s.step event) m' := by
  cases event with
  | start trustedKey expectedIssuer siteId signedFloor floorLinks readFault =>
    exact marked_start h trustedKey expectedIssuer siteId signedFloor floorLinks readFault
  | crash => exact ⟨m, h.die h.read le_rfl⟩
  | accept envelopeBytes now faults =>
    cases hlive : s.live with
    | none =>
      refine ⟨m, ?_⟩
      simpa only [step, hlive] using h
    | some store =>
      cases hvet : store.vet envelopeBytes now with
      | error e =>
        have hsame : s.step (.accept envelopeBytes now faults) = s := by
          simp only [step, hlive, BundleStore.accept_of_refused hvet]
          rw [← hlive]
          show Site.mk s.epochs s.live (s.installed ++ []) = s
          rw [List.append_nil]
        rw [hsame]
        exact ⟨m, h⟩
      | ok admitted =>
        obtain ⟨envelope, hadmitted, -⟩ := BundleStore.vet_ok.mp hvet
        obtain ⟨n, hn⟩ := hint store envelopeBytes now envelope admitted.1 rfl hlive hadmitted
        exact marked_accept h envelopeBytes now faults (integerSequence_of_admitted hadmitted hn)
  | crashInAccept envelopeBytes now faults performed =>
    cases hlive : s.live with
    | none =>
      refine ⟨m, ?_⟩
      simpa only [step, hlive] using h
    | some store =>
      cases hvet : store.vet envelopeBytes now with
      | error e =>
        refine ⟨m, ?_⟩
        simp only [step, hlive, hvet]
        exact h.die h.read le_rfl
      | ok admitted =>
        obtain ⟨envelope, hadmitted, -⟩ := BundleStore.vet_ok.mp hvet
        obtain ⟨n, hn⟩ := hint store envelopeBytes now envelope admitted.1 rfl hlive hadmitted
        exact marked_crashInAccept h envelopeBytes now faults performed
          (integerSequence_of_admitted hadmitted hn)

/-- The site is in order, and what it holds the authority signed. -/
structure Vouched (signer : BundleSigner rt) (issued : List Order) (s : Site rt) : Prop where
  inOrder : (∃ base low m, s.Marked base low m) ∨ s.Unreadable
  trusted : ∀ store, s.live = some store →
    store.trustedKey = rt.publicKey signer.key ∧ store.expectedIssuer = signer.issuer
  installed : ∀ w ∈ s.installed, w ∈ published issued
  governs : ∀ store, s.live = some store → ∀ w, store.bundle = some w → w ∈ s.installed
  floor : ∀ store, s.live = some store →
    FloorSigned signer.issuer issued store.siteId store.floor

end Site

theorem sequence_published {issued : List Order} {w : WireBundle} (h : w ∈ published issued) :
    ∃ n, w.sequence = .int n := by
  obtain ⟨b, -, -, c, -, -, rfl⟩ := mem_published.mp h
  exact ⟨c.sequence, rfl⟩

theorem published_append (earlier later : List Order) :
    published (earlier ++ later) = published earlier ++ published later :=
  List.filterMap_append

theorem Site.Vouched.more {rt : Runtime} {signer : BundleSigner rt} {issued : List Order}
    {s : Site rt} (h : s.Vouched signer issued) (order : Order) :
    s.Vouched signer (issued ++ [order]) where
  inOrder := h.inOrder
  trusted := h.trusted
  installed w hw := by
    rw [published_append]
    exact List.mem_append_left _ (h.installed w hw)
  governs := h.governs
  floor store hlive := by
    obtain ⟨links, classes, now, nonce, floor, c, horder, hfloor⟩ := h.floor store hlive
    exact ⟨links, classes, now, nonce, floor, c, List.mem_append_left _ horder, hfloor⟩

section Steps
variable {rt : Runtime} (laws : rt.Lawful) {signer : BundleSigner rt} {issued : List Order}
  {s : Site rt} {event : SiteEvent rt}
include laws

/-- The bytes of an event are not forged, and a process that comes up answers to the authority. -/
def SiteEvent.Honest (signer : BundleSigner rt) (issued : List Order) : SiteEvent rt → Prop
  | .start trustedKey expectedIssuer _ signedFloor _ _ =>
      trustedKey = rt.publicKey signer.key ∧ expectedIssuer = signer.issuer ∧
        Unforged signer issued signedFloor
  | .accept envelopeBytes _ _ => Unforged signer issued envelopeBytes
  | .crashInAccept envelopeBytes _ _ _ => Unforged signer issued envelopeBytes
  | .crash => True

omit laws in
theorem SiteEvent.Honest.delivery (h : event.Honest signer issued) {envelopeBytes : Bytes}
    {now : DateTime} (hdelivered : event.delivery? = some (envelopeBytes, now)) :
    Unforged signer issued envelopeBytes := by
  cases event with
  | accept envelopeBytes' now' faults =>
    cases hdelivered
    exact h
  | crashInAccept envelopeBytes' now' faults performed =>
    cases hdelivered
    exact h
  | start => cases hdelivered
  | crash => cases hdelivered

theorem inOrder_step (h : s.Vouched signer issued) (hhonest : event.Honest signer issued) :
    (∃ base low m, (s.step event).Marked base low m) ∨ (s.step event).Unreadable := by
  rcases h.inOrder with ⟨base, low, m, hmarked⟩ | hunreadable
  · obtain ⟨m', hmarked'⟩ := Site.marked_of_admitted hmarked event
      fun store envelopeBytes now envelope w hdelivered hlive hadmitted =>
        sequence_published (admitted_issued laws (hhonest.delivery hdelivered)
          (h.trusted store hlive).1 hadmitted)
    exact .inl ⟨base, low, m', hmarked'⟩
  · exact .inr (Site.unreadable_step hunreadable event)

omit laws in
/-- A site is vouched for if the process is that it may be left with. -/
theorem Site.Vouched.of_live {live : Option (BundleStore rt)} (hlive : s.live = none ∨ s.live = live)
    (hinOrder : (∃ base low m, s.Marked base low m) ∨ s.Unreadable)
    (hinstalled : ∀ w ∈ s.installed, w ∈ published issued)
    (hheld : ∀ store, live = some store →
      (store.trustedKey = rt.publicKey signer.key ∧ store.expectedIssuer = signer.issuer) ∧
      (∀ w, store.bundle = some w → w ∈ s.installed) ∧
      FloorSigned signer.issuer issued store.siteId store.floor) : s.Vouched signer issued := by
  have hback : ∀ store, s.live = some store → live = some store := by
    intro store hstore
    rcases hlive with hnone | hsame
    · rw [hnone] at hstore
      cases hstore
    · rwa [← hsame]
  exact {
    inOrder := hinOrder
    trusted := fun store hstore => (hheld store (hback store hstore)).1
    installed := hinstalled
    governs := fun store hstore => (hheld store (hback store hstore)).2.1
    floor := fun store hstore => (hheld store (hback store hstore)).2.2 }

/-- A step leaves its site vouched for. -/
theorem vouched_step (h : s.Vouched signer issued) (hhonest : event.Honest signer issued) :
    (s.step event).Vouched signer issued := by
  have hinOrder := inOrder_step laws h hhonest
  cases Site.step_outcome s event with
  | idle hlive hinstalled =>
    refine .of_live hlive hinOrder (hinstalled ▸ h.installed) ?_
    intro store hstore
    exact ⟨h.trusted store hstore, hinstalled ▸ h.governs store hstore, h.floor store hstore⟩
  | started trustedKey expectedIssuer siteId signedFloor floorLinks readFault store hevent hinit
      hlive hinstalled =>
    subst hevent
    obtain ⟨rfl, rfl, hunforged⟩ := hhonest
    obtain ⟨w, sequence, hfloor, -, -, rfl⟩ := BundleStore.init_ok.mp hinit
    refine .of_live (.inr hlive) hinOrder (hinstalled ▸ h.installed) ?_
    rintro store ⟨⟩
    refine ⟨⟨rfl, rfl⟩, ?_, floor_issued laws hunforged hfloor⟩
    intro w' hw'
    cases hw'
  | took store envelopeBytes now envelope w hdelivered hbefore hadmitted hlive hinstalled =>
    have hpublished := admitted_issued laws (hhonest.delivery hdelivered)
      (h.trusted store hbefore).1 hadmitted
    refine .of_live hlive hinOrder ?_ ?_
    · rw [hinstalled]
      intro w' hw'
      rcases List.mem_append.mp hw' with hw' | hw'
      · exact h.installed w' hw'
      · rwa [List.mem_singleton.mp hw']
    · rintro store' ⟨⟩
      refine ⟨h.trusted store hbefore, ?_, h.floor store hbefore⟩
      intro w' hw'
      rw [hinstalled, ← Option.some.inj hw']
      exact List.mem_append_right _ (List.mem_singleton_self w)

end Steps

/-! ## Runs of the network -/

namespace WireBundle

/-- The number of the one is below that of the other. -/
def Below (w w' : WireBundle) : Prop :=
  ∃ n m, w.sequence = .int n ∧ w'.sequence = .int m ∧ n < m

theorem Below.asymm {w w' : WireBundle} (h : w.Below w') (h' : w'.Below w) : False := by
  obtain ⟨n, m, hn, hm, hlt⟩ := h
  obtain ⟨m', n', hm', hn', hlt'⟩ := h'
  obtain rfl := Value.int.inj (hn.symm.trans hn')
  obtain rfl := Value.int.inj (hm.symm.trans hm')
  omega

theorem Below.ne {w w' : WireBundle} (h : w.Below w') : w.sequence ≠ w'.sequence := by
  obtain ⟨n, m, hn, hm, hlt⟩ := h
  rw [hn, hm]
  intro hsame
  exact hlt.ne (Value.int.inj hsame)

/-- Bundles that are numbered up are told apart by their numbers. -/
theorem eq_of_sequence {ws : List WireBundle} (h : ws.Pairwise Below) {w w' : WireBundle}
    (hw : w ∈ ws) (hw' : w' ∈ ws) (hsame : w.sequence = w'.sequence) : w = w' := by
  obtain ⟨i, hi, rfl⟩ := List.getElem_of_mem hw
  obtain ⟨j, hj, rfl⟩ := List.getElem_of_mem hw'
  rcases lt_trichotomy i j with hlt | rfl | hgt
  · exact absurd hsame (List.pairwise_iff_getElem.mp h i j hi hj hlt).ne
  · rfl
  · exact absurd hsame.symm (List.pairwise_iff_getElem.mp h j i hj hi hgt).ne

instance : Std.Irrefl Below := ⟨fun _ h => h.asymm h⟩

instance : Std.Antisymm Below := ⟨fun _ _ h h' => (h.asymm h').elim⟩

end WireBundle

theorem below_published {issued : List Order} (h : issued.Pairwise Order.Below) :
    (published issued).Pairwise WireBundle.Below := by
  rw [published, List.pairwise_filterMap]
  refine h.imp ?_
  intro earlier later hbelow w hw w' hw'
  have hsequence {order : Order} {w : WireBundle} (hw : order.wire? = some w) :
      ∃ n, order.sequence? = some n ∧ w.sequence = .int n := by
    cases order with
    | bundle b now nonce =>
      simp only [Order.wire?, Option.map_eq_some_iff] at hw
      obtain ⟨c, hcut, rfl⟩ := hw
      refine ⟨b.sequence, rfl, ?_⟩
      cases hb : b.cut with
      | error e =>
        rw [hb] at hcut
        cases hcut
      | ok c' =>
        rw [hb] at hcut
        cases hcut
        exact congrArg Value.int (PolicyBundle.cut_fields hb).2.1
    | floor siteId links classes now nonce => cases hw
  obtain ⟨n, hn, hwn⟩ := hsequence hw
  obtain ⟨m, hm, hwm⟩ := hsequence hw'
  exact ⟨n, m, hwn, hwm, hbelow n m hn hm⟩

theorem Site.Vouched.below {rt : Runtime} {signer : BundleSigner rt} {issued : List Order}
    {s : Site rt} (h : s.Vouched signer issued) : s.installed.Pairwise WireBundle.Below := by
  rcases h.inOrder with ⟨base, low, m, hmarked⟩ | ⟨-, -, hnone⟩
  · obtain ⟨ns, hseq, hsorted, -, -⟩ := hmarked.installed
    have hpairs : (s.installed.map (·.sequence)).Pairwise
        fun v v' => ∃ n m, v = Value.int n ∧ v' = Value.int m ∧ n < m := by
      rw [hseq, List.pairwise_map]
      exact hsorted.imp fun hlt => ⟨_, _, rfl, rfl, hlt⟩
    rwa [List.pairwise_map] at hpairs
  · rw [hnone]
    exact List.Pairwise.nil

/-- What a site installed, the authority published in that order. -/
theorem Site.Vouched.sublist {rt : Runtime} {signer : BundleSigner rt} {issued : List Order}
    {s : Site rt} (h : s.Vouched signer issued) (hnumbered : issued.Pairwise Order.Below) :
    s.installed.Sublist (published issued) :=
  List.sublist_of_subperm_of_pairwise (List.subperm_of_subset h.below.nodup h.installed) h.below
    (below_published hnumbered)

namespace Network
variable {rt : Runtime} {ι : Type} [DecidableEq ι] {signer : BundleSigner rt}

/-- The events of a site. -/
def at? (i : ι) : NetworkEvent rt ι → Option (SiteEvent rt)
  | .issue _ => none
  | .site j event => if j = i then some event else none

/-- What happens to a site is what happens at it. -/
theorem sites_run (net : Network rt ι) (events : List (NetworkEvent rt ι)) (i : ι) :
    (Run.run (step signer) net events).sites i =
      Run.run Site.step (net.sites i) (events.filterMap (at? i)) := by
  induction events generalizing net with
  | nil => rfl
  | cons event events ih =>
    rw [Run.run_cons, ih]
    cases event with
    | issue order =>
      have hsame : (net.step signer (.issue order)).sites = net.sites := by
        simp only [step]
        split <;> rfl
      rw [hsame]
      rfl
    | site j event =>
      simp only [step]
      by_cases hj : j = i
      · subst hj
        have hat : at? j (.site j event) = some event := if_pos rfl
        rw [Function.update_self, List.filterMap_cons_some hat, Run.run_cons]
      · have hat : at? i (.site j event) = none := if_neg hj
        rw [Function.update_of_ne (Ne.symm hj), List.filterMap_cons_none hat]

/-- The authority numbers its bundles up, and alone signs for itself. -/
def Allowed (signer : BundleSigner rt) (net : Network rt ι) : NetworkEvent rt ι → Prop
  | .issue order => ∀ earlier ∈ net.issued, earlier.Below order
  | .site _ event => event.Honest signer net.issued

structure Vouched (signer : BundleSigner rt) (net : Network rt ι) : Prop where
  numbered : net.issued.Pairwise Order.Below
  sites : ∀ i, (net.sites i).Vouched signer net.issued

omit [DecidableEq ι] in
theorem vouched_fresh {epochs : ι → EpochStore} (hmark : ∀ i, IntegerMark (epochs i)) :
    (fresh epochs : Network rt ι).Vouched signer where
  numbered := List.Pairwise.nil
  sites i := {
    inOrder := by
      cases hread : (epochs i).read with
      | error e => exact .inr ⟨⟨e, hread⟩, rfl, rfl⟩
      | ok v =>
        obtain ⟨m, rfl⟩ := hmark i v hread
        exact .inl ⟨m, m, m, Site.marked_fresh hread⟩
    trusted := by rintro store ⟨⟩
    installed := by rintro w ⟨⟩
    governs := by rintro store ⟨⟩
    floor := by rintro store ⟨⟩ }

theorem vouched_keep (laws : rt.Lawful) (net : Network rt ι) (event : NetworkEvent rt ι)
    (h : net.Vouched signer) (hallowed : net.Allowed signer event) :
    (net.step signer event).Vouched signer := by
  cases event with
  | issue order =>
    cases hissue : order.issue signer with
    | error e => simpa only [step, hissue] using h
    | ok envelopeBytes =>
      simp only [step, hissue]
      refine ⟨List.pairwise_append.mpr ⟨h.numbered, List.pairwise_singleton _ _, ?_⟩, ?_⟩
      · intro earlier hearlier later hlater
        rw [List.mem_singleton.mp hlater]
        exact hallowed earlier hearlier
      · exact fun i => (h.sites i).more order
  | site j event =>
    refine ⟨h.numbered, ?_⟩
    intro i
    show (Function.update net.sites j ((net.sites j).step event) i).Vouched signer net.issued
    by_cases hi : i = j
    · subst hi
      rw [Function.update_self]
      exact Pilotfish.vouched_step laws (h.sites i) hallowed
    · rw [Function.update_of_ne hi]
      exact h.sites i

end Network

/-- Every site has installed some of the published bundles in the order of their publication, each
once at most. What governs it is one of them, or its own floor; and sites that govern by bundles of
one sequence govern by the same bundle. -/
theorem sites_agree {rt : Runtime} (laws : rt.Lawful) {ι : Type} [DecidableEq ι]
    {signer : BundleSigner rt} {epochs : ι → EpochStore} (hmark : ∀ i, IntegerMark (epochs i))
    {events : List (NetworkEvent rt ι)} (hallowed : Run.Along (Network.step signer)
      (Network.Allowed signer) (Network.fresh epochs) events) :
    let net := Run.run (Network.step signer) (Network.fresh epochs) events
    (∀ i, (net.sites i).installed.Sublist (published net.issued)) ∧
    (∀ i store now w, (net.sites i).live = some store → store.current now = (w, false) →
      w ∈ (net.sites i).installed) ∧
    (∀ i store now w, (net.sites i).live = some store → store.current now = (w, true) →
      FloorSigned signer.issuer net.issued store.siteId w) ∧
    ∀ i j store store' now now' w w', (net.sites i).live = some store →
      (net.sites j).live = some store' → store.current now = (w, false) →
      store'.current now' = (w', false) → w.sequence = w'.sequence → w = w' := by
  intro net
  have hvouched : net.Vouched signer := Run.Along.invariant (I := Network.Vouched signer)
    (fun net event h ha => Network.vouched_keep laws net event h ha)
    (Network.vouched_fresh hmark) hallowed
  have hgoverns : ∀ i store now w, (net.sites i).live = some store →
      store.current now = (w, false) → w ∈ (net.sites i).installed := by
    intro i store now w hlive hcurrent
    exact (hvouched.sites i).governs store hlive w (BundleStore.current_not_degraded.mp hcurrent).1
  refine ⟨fun i => (hvouched.sites i).sublist hvouched.numbered, hgoverns, ?_, ?_⟩
  · intro i store now w hlive hcurrent
    rw [(BundleStore.current_degraded.mp hcurrent).1]
    exact (hvouched.sites i).floor store hlive
  · intro i j store store' now now' w w' hlive hlive' hcurrent hcurrent' hsame
    have hw := (hvouched.sites i).installed w (hgoverns i store now w hlive hcurrent)
    have hw' := (hvouched.sites j).installed w' (hgoverns j store' now' w' hlive' hcurrent')
    exact WireBundle.eq_of_sequence (below_published hvouched.numbered) hw hw' hsame

namespace Sample

/-- The orders for a floor and for two bundles. -/
def orders : List Order :=
  [.floor "site-1" [fiber0, lte0] [TrafficClass.ofId "bulk"] (clock 0) defaultNonce,
    .bundle (bundle 1) (clock 0) (List.replicate 16 0),
    .bundle (bundle 2) (clock 0) (List.replicate 16 1)]

theorem unforged_signedFloor : Unforged signer orders signedFloor :=
  unforged_issued lawful_standIn (.head _) sign_signedFloor

theorem unforged_envelope {sequence : Int} {nonce : UInt8}
    (h : Order.bundle (bundle sequence) (clock 0) (List.replicate 16 nonce) ∈ orders) :
    Unforged signer orders (envelope sequence nonce) :=
  unforged_issued lawful_standIn h (publish_bundle sequence nonce)

/-- Nobody signed what cannot be read. -/
theorem unforged_nothing : Unforged signer orders [] where
  signed envelope _ hdecoded := by cases hdecoded
  injective envelope hdecoded := by cases hdecoded

def starting : SiteEvent standIn :=
  .start (standIn.publicKey signer.key) "authority-1" "site-1" signedFloor none none

/-- Two sites of one authority. Each bundle reaches one of them, and noise reaches the first. -/
def traffic : List (NetworkEvent standIn Bool) :=
  [.site true starting, .site false starting, .site true (.accept (envelope 2 1) (clock 60) {}),
    .site true (.accept [] (clock 90) {}), .site false (.accept (envelope 1 0) (clock 60) {})]

def network : Network standIn Bool := ⟨orders, fun _ => Site.fresh (.memory (.int (-1)))⟩

theorem step_issue (order : Order) {net : Network standIn Bool} {envelopeBytes : Bytes}
    (h : order.issue signer = .ok envelopeBytes) :
    net.step signer (.issue order) = { net with issued := net.issued ++ [order] } := by
  simp only [Network.step, h]

theorem issue_floor : Order.issue signer (.floor "site-1" [fiber0, lte0] [TrafficClass.ofId "bulk"]
    (clock 0) defaultNonce) = .ok signedFloor := sign_signedFloor

theorem issue_bundle (sequence : Int) (nonce : UInt8) : Order.issue signer
    (.bundle (bundle sequence) (clock 0) (List.replicate 16 nonce)) = .ok (envelope sequence nonce) :=
  publish_bundle sequence nonce

theorem run_orders : Run.run (Network.step signer) (Network.fresh fun _ => .memory (.int (-1)))
    (orders.map .issue) = network := by
  simp only [orders, List.map, Run.run_cons, Run.run_nil, step_issue _ issue_floor,
    step_issue _ (issue_bundle 1 0), step_issue _ (issue_bundle 2 1)]
  rfl

theorem allowed_traffic : Run.Along (Network.step signer) (Network.Allowed signer)
    (Network.fresh fun _ => .memory (.int (-1))) (orders.map .issue ++ traffic) := by
  rw [Run.along_append, run_orders]
  refine ⟨?_, ⟨rfl, rfl, unforged_signedFloor⟩, ⟨rfl, rfl, unforged_signedFloor⟩,
    unforged_envelope (by simp [orders]), unforged_nothing, unforged_envelope (by simp [orders]),
    trivial⟩
  simp only [orders, List.map, Run.Along, step_issue _ issue_floor,
    step_issue _ (issue_bundle 1 0)]
  refine ⟨by rintro earlier ⟨⟩, ?_, ?_, trivial⟩
  · intro earlier hearlier m n hm hn
    obtain rfl := List.mem_singleton.mp hearlier
    cases hm
  · intro earlier hearlier m n hm hn
    rcases List.mem_pair.mp hearlier with rfl | rfl
    · cases hm
    · cases hm
      cases hn
      decide

theorem step_starting : ∃ floor : WireBundle, Site.step (Site.fresh (.memory (.int (-1)))) starting =
    ⟨.memory (.int (-1)), some ⟨standIn.publicKey signer.key, "authority-1", "site-1", floor, none,
      .int (-1), []⟩, []⟩ := by
  have hread : (EpochStore.memory (.int (-1))).read = .ok (.int (-1)) := rfl
  obtain ⟨floor, hinit⟩ := init_ok hread
  refine ⟨floor, ?_⟩
  simp only [Site.step, starting, Site.fresh, hinit]
  rfl

theorem step_accept (sequence : Int) (nonce : UInt8) (h : -1 < sequence) (floor : WireBundle) :
    ∃ epochs store, Site.step ⟨.memory (.int (-1)), some ⟨standIn.publicKey signer.key, "authority-1",
      "site-1", floor, none, .int (-1), []⟩, []⟩ (.accept (envelope sequence nonce) (clock 60) {}) =
        ⟨epochs, some store, [(bundle sequence).toWire]⟩ := by
  have haccept : BundleStore.accept ⟨standIn.publicKey signer.key, "authority-1", "site-1", floor, none,
      .int (-1), []⟩ (.memory (.int (-1))) {} (envelope sequence nonce) (clock 60) = _ :=
    accept sequence nonce rfl rfl rfl (by decide) (by decide) rfl h rfl (.inl trivial)
  simp only [Site.step, haccept]
  exact ⟨_, _, rfl⟩

/-- What the sites have installed in the end. -/
theorem run_traffic : ∀ site, ((Run.run (Network.step signer) network traffic).sites site).installed =
    [(bundle (if site then 2 else 1)).toWire] := by
  obtain ⟨floor, hstart⟩ := step_starting
  intro site
  rw [Network.sites_run]
  cases site with
  | false =>
    have hevents : traffic.filterMap (Network.at? false) =
        [starting, .accept (envelope 1 0) (clock 60) {}] := by simp [traffic, Network.at?]
    obtain ⟨epochs, store, haccept⟩ := step_accept 1 0 (by decide) floor
    rw [hevents, Run.run_cons, Run.run_cons, Run.run_nil, network, hstart, haccept]
    rfl
  | true =>
    have hevents : traffic.filterMap (Network.at? true) = [starting,
        .accept (envelope 2 1) (clock 60) {}, .accept [] (clock 90) {}] := by
      simp [traffic, Network.at?]
    obtain ⟨epochs, store, haccept⟩ := step_accept 2 1 (by decide) floor
    rw [hevents, Run.run_cons, Run.run_cons, Run.run_cons, Run.run_nil, network, hstart, haccept]
    rfl

end Sample

/-- The one site is a bundle behind the other, and what each installed was published. -/
theorem sites_agree_sample :
    let net := Run.run (Network.step Sample.signer) (Network.fresh fun _ => .memory (.int (-1)))
      (Sample.orders.map .issue ++ Sample.traffic)
    (net.sites true).installed = [(Sample.bundle 2).toWire] ∧
    (net.sites false).installed = [(Sample.bundle 1).toWire] ∧
    ∀ site, (net.sites site).installed.Sublist (published net.issued) := by
  intro net
  have hinstalled := Sample.run_traffic
  rw [← Sample.run_orders, ← Run.run_append] at hinstalled
  refine ⟨hinstalled true, hinstalled false, ?_⟩
  exact (sites_agree lawful_standIn (fun _ => by rintro v ⟨⟩; exact ⟨-1, rfl⟩)
    Sample.allowed_traffic).1

end Pilotfish
