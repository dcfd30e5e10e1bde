import Pilotfish.BundleStore
import Mathlib.Tactic.Ring

/-!
# The authority side

The authority signs a policy into an envelope; it decides nothing in real time. A floor is
signed the same way, with the site and the link inventory it is bound to.

Results:
1. `admitted_publish`: when a site admits what its authority published, and as what.
2. `integerSequence_publish`: what a signer publishes carries an integer sequence.
3. `installFloor_signFloor`: a site installs the floor its authority signed for it.
   `installed_signFloor`: and installs nothing else from it.
-/

namespace Pilotfish
open Python

variable {rt : Runtime}

def defaultNonce : Bytes := List.replicate 16 0

structure BundleSigner (rt : Runtime) where
  key : rt.PrivateKey
  issuer : String

def BundleSigner.publish (signer : BundleSigner rt) (bundle : PolicyBundle) (now : DateTime)
    (nonce : Bytes := defaultNonce) : Except Exc Bytes := do
  let envelope ← sign rt msgPolicyBundle signer.issuer now nonce (encodeBundle rt bundle) signer.key
  return encodeEnvelope rt envelope

/-- Sign the degraded-mode policy for one site. -/
def signFloor (signer : BundleSigner rt) (siteId : String) (links : List Link)
    (classes : List TrafficClass) (now : DateTime) (nonce : Bytes := defaultNonce) :
    Except Exc Bytes := do
  let floor ← floorBundle links (some now) signer.issuer (some classes)
  let inventoryHash ← linkInventoryHash rt links
  let envelope ← sign rt msgFloorConfig signer.issuer now nonce
    (encodeFloorConfig rt siteId inventoryHash floor) signer.key
  return encodeEnvelope rt envelope

/-! ## What cutting keeps -/

/-- The instants of a bundle are cut one by one. -/
theorem PolicyBundle.cut_eq_ok_iff {b c : PolicyBundle} : b.cut = .ok c ↔
    b.issuedAt.cut = .ok c.issuedAt ∧ b.notAfter.cut = .ok c.notAfter ∧
    b.rules.mapM Rule.cut = .ok c.rules ∧
    c = { b with issuedAt := c.issuedAt, notAfter := c.notAfter, rules := c.rules } := by
  simp only [cut, bind_eq_ok_iff]
  constructor
  · rintro ⟨issuedAt, hissued, notAfter, hnot, rules, hrules, hret⟩
    cases hret
    exact ⟨hissued, hnot, hrules, rfl⟩
  · rintro ⟨hissued, hnot, hrules, heq⟩
    exact ⟨_, hissued, _, hnot, _, hrules, congrArg Except.ok heq.symm⟩

theorem PolicyBundle.cut_fields {b c : PolicyBundle} (h : b.cut = .ok c) :
    c.authorityId = b.authorityId ∧ c.sequence = b.sequence ∧ c.decisionTtlS = b.decisionTtlS ∧
    c.links = b.links ∧ c.trafficClasses = b.trafficClasses := by
  obtain ⟨-, -, -, heq⟩ := cut_eq_ok_iff.mp h
  rw [heq]
  exact ⟨rfl, rfl, rfl, rfl, rfl⟩

/-- Rules without an instant are read as they were sent. -/
theorem Rule.mapM_cut {rules : List Rule}
    (h : ∀ rule ∈ rules, ∀ i l r t, rule ≠ .directive i l r t) :
    rules.mapM Rule.cut = .ok rules := by
  induction rules with
  | nil => rfl
  | cons rule rules ih =>
    have hrule : rule.cut = .ok rule := by
      cases rule with
      | directive i l r t => exact absurd rfl (h _ List.mem_cons_self i l r t)
      | _ => rfl
    rw [List.mapM_cons, hrule, ih fun r hr => h r (List.mem_cons_of_mem _ hr)]
    rfl

/-! ## What a site admits -/

section Publish
variable (laws : rt.Lawful) {signer : BundleSigner rt} {bundle : PolicyBundle} {issue : DateTime}
  {nonce envelopeBytes : Bytes} (hnonce : nonce.length = nonceBytes)
include hnonce

theorem publish_ok : signer.publish bundle issue nonce = .ok (encodeEnvelope rt
    (signed rt msgPolicyBundle signer.issuer issue nonce (encodeBundle rt bundle) signer.key)) := by
  rw [BundleSigner.publish, sign_ok hnonce]
  rfl

variable (hpublish : signer.publish bundle issue nonce = .ok envelopeBytes)
include laws hpublish

theorem decodeEnvelope_publish {envelope : Envelope} :
    decodeEnvelope rt envelopeBytes = .ok envelope ↔
    ∃ t, issue.cut = .ok t ∧ envelope = { signed rt msgPolicyBundle signer.issuer issue nonce
      (encodeBundle rt bundle) signer.key with issuedAt := t } := by
  rw [publish_ok hnonce, Except.ok.injEq] at hpublish
  rw [← hpublish, decodeEnvelope_encodeEnvelope laws plain_signed]
  show issue.cut.map _ = _ ↔ _
  cases issue.cut with
  | error e => simp [Except.map]
  | ok t => simp [Except.map, eq_comm]

theorem decodeBundle_publish {envelope : Envelope} {w : WireBundle}
    (h : decodeEnvelope rt envelopeBytes = .ok envelope) :
    decodeBundle rt envelope.payload = .ok w ↔ ∃ c, bundle.cut = .ok c ∧ w = c.toWire := by
  obtain ⟨t, -, rfl⟩ := (decodeEnvelope_publish laws hnonce hpublish).mp h
  show decodeBundle rt (.bytes (encodeBundle rt bundle)) = _ ↔ _
  rw [decodeBundle_encodeBundle laws]
  cases bundle.cut with
  | error e => simp [Except.map]
  | ok c => simp [Except.map, eq_comm]

/-- A published bundle carries the integer it was given. -/
theorem sequence_publish {envelope : Envelope} {w : WireBundle}
    (h : decodeEnvelope rt envelopeBytes = .ok envelope)
    (hw : decodeBundle rt envelope.payload = .ok w) : w.sequence = .int bundle.sequence := by
  obtain ⟨c, hc, rfl⟩ := (decodeBundle_publish laws hnonce hpublish h).mp hw
  show Value.int c.sequence = _
  rw [(PolicyBundle.cut_fields hc).2.1]

theorem integerSequence_publish : IntegerSequence rt envelopeBytes := fun _ _ h hw =>
  ⟨bundle.sequence, sequence_publish laws hnonce hpublish h hw⟩

variable {s : BundleStore rt} (hkey : s.trustedKey = rt.publicKey signer.key)
  (hissuer : s.expectedIssuer = signer.issuer)
include hkey hissuer

/-- A site that trusts the signer admits what it published exactly when the instants can be
read, none of them is refused by the clock, the nonce is new, the bundle names the issuer and
its sequence is above the store's. -/
theorem admitted_publish {now : DateTime} {envelope : Envelope} {w : WireBundle} :
    s.Admitted envelopeBytes now envelope w ↔
    ∃ t c, issue.cut = .ok t ∧ bundle.cut = .ok c ∧ w = c.toWire ∧
      envelope = { signed rt msgPolicyBundle signer.issuer issue nonce (encodeBundle rt bundle)
        signer.key with issuedAt := t } ∧
      t.timestamp ≤ horizon now ∧ s.seenNonces.any (·.eq (.bytes nonce)) = false ∧
      bundle.authorityId = signer.issuer ∧
      (Value.int bundle.sequence).le s.sequence = .ok false ∧ now.us < c.notAfter.us := by
  constructor
  · intro h
    obtain ⟨t, ht, henvelope⟩ := (decodeEnvelope_publish laws hnonce hpublish).mp h.decoded
    obtain ⟨c, hc, hw⟩ := (decodeBundle_publish laws hnonce hpublish h.decoded).mp h.payload
    have hauthority := h.authority
    have hnewer := h.newer
    have hvalid := h.valid
    have hstamped := h.stamped
    have hunseen := h.unseen
    subst henvelope
    subst hw
    refine ⟨t, c, ht, hc, rfl, rfl, hstamped, hunseen, ?_, ?_, hvalid⟩
    · rw [hissuer] at hauthority
      rw [← (PolicyBundle.cut_fields hc).1]
      exact Value.str.inj hauthority
    · rw [← (PolicyBundle.cut_fields hc).2.1]
      exact hnewer
  · rintro ⟨t, c, ht, hc, rfl, rfl, hstamped, hunseen, hauthority, hnewer, hvalid⟩
    have hdecoded := (decodeEnvelope_publish laws hnonce hpublish).mpr ⟨t, ht, rfl⟩
    -- the instant that arrives is another, but of the same second, which is all that is signed
    refine ⟨hdecoded, rfl, ?_, hstamped, ?_, rfl, hunseen,
      (decodeBundle_publish laws hnonce hpublish hdecoded).mpr ⟨c, hc, rfl⟩, ?_, ?_, hvalid⟩
    · rw [hissuer]
      rfl
    · rw [hkey]
      exact verify_sign laws hnonce (DateTime.cut_seconds ht)
    · show Value.str c.authorityId = _
      rw [(PolicyBundle.cut_fields hc).1, hauthority, hissuer]
    · show (Value.int c.sequence).le _ = _
      rw [(PolicyBundle.cut_fields hc).2.1]
      exact hnewer

end Publish

/-! ## What a site installs as its floor -/

theorem inventoryRow_toWire (l : Link) : inventoryRow l.toWire = inventoryRow l := by
  simp [inventoryRow, Link.toWire]

theorem linkInventoryHash_toWire (rt : Runtime) (links : List Link) :
    linkInventoryHash rt (links.map Link.toWire) = linkInventoryHash rt links := by
  rw [linkInventoryHash, linkInventoryHash, List.map_map]
  congr 2
  exact List.map_congr_left fun l _ => inventoryRow_toWire l

theorem signFloor_ok {signer : BundleSigner rt} (siteId : String) {links : List Link}
    {classes : List TrafficClass} {now : DateTime} {nonce : Bytes} {floor : PolicyBundle}
    (hnonce : nonce.length = nonceBytes)
    (hfloor : floorBundle links (some now) signer.issuer (some classes) = .ok floor) :
    ∃ signedFloor, signFloor signer siteId links classes now nonce = .ok signedFloor := by
  obtain ⟨inventoryHash, hhash⟩ := linkInventoryHash_ok rt links
  rw [signFloor, hfloor, hhash]
  simp only [bind, Except.bind, sign_ok hnonce]
  exact ⟨_, rfl⟩

/-- The rules of a floor have no instants. -/
theorem mapM_cut_floorRules (classes : List TrafficClass) :
    (floorRules classes).mapM Rule.cut = .ok (floorRules classes) := by
  refine Rule.mapM_cut ?_
  intro rule hrule i l r t heq
  subst heq
  simp only [floorRules, floorClassRules, List.mem_cons, reduceCtorEq, List.mem_flatMap, false_or]
    at hrule
  obtain ⟨c, -, hc⟩ := hrule
  unfold floorRulesOf at hc
  split_ifs at hc <;> simp at hc

/-- A floor made at a whole second, ten years before the end of the calendar or earlier, is read
as it was sent. -/
theorem floorBundle_whole {now : DateTime} {n : Int} (hnow : now.us = n * 1000000)
    (hn : n + 315360000 ≤ maxSecond) (links : List Link) (authorityId : String)
    (classes : List TrafficClass) :
    ∃ floor, floorBundle links (some now) authorityId (some classes) = .ok floor ∧
      floor.cut = .ok floor := by
  have hrange : minSecond * 1000000 ≤ (n + 315360000) * 1000000 ∧
      (n + 315360000) * 1000000 < (maxSecond + 1) * 1000000 := by
    have hlo := now.lower
    omega
  have hadd : now.add (3650 * 86400 * 1000000) =
      .ok ⟨(n + 315360000) * 1000000, hrange.1, hrange.2⟩ := by
    refine DateTime.ofUs_eq_ok.mpr ?_
    rw [hnow]
    ring
  refine ⟨_, by simp only [floorBundle, Option.getD_some, hadd]; rfl, ?_⟩
  exact PolicyBundle.cut_eq_ok_iff.mpr ⟨DateTime.cut_of_whole hnow, DateTime.cut_of_whole rfl,
    mapM_cut_floorRules _, rfl⟩

theorem installFloor_signFloor (laws : rt.Lawful) {signer : BundleSigner rt} {siteId : String}
    {links : List Link} {classes : List TrafficClass} {now t : DateTime} {nonce signedFloor : Bytes}
    {floor c : PolicyBundle} (hnonce : nonce.length = nonceBytes)
    (hfloor : floorBundle links (some now) signer.issuer (some classes) = .ok floor)
    (hsign : signFloor signer siteId links classes now nonce = .ok signedFloor)
    (ht : now.cut = .ok t) (hc : floor.cut = .ok c) :
    installFloor (rt.publicKey signer.key) signer.issuer siteId signedFloor none =
    .ok c.toWire := by
  obtain ⟨inventoryHash, hhash⟩ := linkInventoryHash_ok rt links
  rw [signFloor, hfloor, hhash] at hsign
  have hsigned : signedFloor = encodeEnvelope rt (signed rt msgFloorConfig signer.issuer now nonce
      (encodeFloorConfig rt siteId inventoryHash floor) signer.key) := by
    simp only [bind, Except.bind, sign_ok hnonce] at hsign
    exact (Except.ok.inj hsign).symm
  refine BundleStore.installFloor_ok.mpr ⟨{ signed rt msgFloorConfig signer.issuer now nonce
    (encodeFloorConfig rt siteId inventoryHash floor) signer.key with issuedAt := t }, ?_, rfl, rfl,
    verify_sign laws hnonce (DateTime.cut_seconds ht), inventoryHash, ?_, ?_⟩
  · rw [hsigned]
    exact decodeEnvelope_signed laws ht
  · show decodeFloorConfig rt (.bytes (encodeFloorConfig rt siteId inventoryHash floor)) = _
    rw [decodeFloorConfig_encodeFloorConfig laws, hc]
    rfl
  · show linkInventoryHash rt (c.links.map Link.toWire) = _
    rw [linkInventoryHash_toWire, (PolicyBundle.cut_fields hc).2.2.2.1, (floorBundle_ok hfloor).2.2.1,
      hhash]

/-- Nothing but the floor it was signed as is installed, whatever key, issuer, site and inventory
the site is configured with. -/
theorem installed_signFloor (laws : rt.Lawful) {signer : BundleSigner rt} {siteId : String}
    {links : List Link} {classes : List TrafficClass} {now : DateTime} {nonce signedFloor : Bytes}
    (hsign : signFloor signer siteId links classes now nonce = .ok signedFloor)
    {trustedKey : rt.PublicKey} {expectedIssuer site : String} {floorLinks : Option (List Link)}
    {w : WireBundle}
    (hinstall : installFloor trustedKey expectedIssuer site signedFloor floorLinks = .ok w) :
    ∃ floor c, floorBundle links (some now) signer.issuer (some classes) = .ok floor ∧
      floor.cut = .ok c ∧ w = c.toWire := by
  obtain ⟨envelope, hinstalled⟩ := BundleStore.installFloor_ok.mp hinstall
  obtain ⟨inventoryHash, hpayload, -⟩ := hinstalled.bound
  obtain ⟨floor, hfloor, hsign⟩ := bind_eq_ok_iff.mp hsign
  obtain ⟨hash, -, hsign⟩ := bind_eq_ok_iff.mp hsign
  obtain ⟨sent, hsent, hsign⟩ := bind_eq_ok_iff.mp hsign
  obtain ⟨-, rfl⟩ := sign_eq_ok.mp hsent
  obtain rfl := Except.ok.inj hsign
  have hdecoded := hinstalled.decoded
  rw [decodeEnvelope_encodeEnvelope laws plain_signed] at hdecoded
  obtain ⟨t, -, rfl⟩ := map_eq_ok_iff.mp hdecoded
  change decodeFloorConfig rt (.bytes (encodeFloorConfig rt siteId hash floor)) = _ at hpayload
  rw [decodeFloorConfig_encodeFloorConfig laws] at hpayload
  obtain ⟨c, hcut, hread⟩ := map_eq_ok_iff.mp hpayload
  cases hread
  exact ⟨floor, c, hfloor, hcut, rfl⟩

/-! ## A sample authority -/

namespace Sample

/-- Noon of 28 August 2026, and whole seconds from then on. -/
def clock (seconds : UInt16) : DateTime :=
  ⟨(1787918400 + seconds.toNat) * 1000000, by unfold minSecond; omega, by
    have h : seconds.toNat < 2 ^ 16 := seconds.toNat_lt
    unfold maxSecond
    omega⟩

/-- The last instant of the calendar; its timestamp rounds to the second after it. -/
def lastInstant : DateTime :=
  ⟨(maxSecond + 1) * 1000000 - 1, by unfold maxSecond minSecond; omega, by omega⟩

def signer : BundleSigner standIn := ⟨List.range 32 |>.map UInt8.ofNat, "authority-1"⟩

/-- The key of a site. -/
def siteKey : standIn.PrivateKey := List.range 32 |>.map fun n => .ofNat (n + 96)

def fiber0 : Link := ⟨"fiber0", "fiber", false, false, [], ""⟩

def lte0 : Link := ⟨"lte0", "lte", true, false, [], ""⟩

/-- One class and one rule, valid for six hours. -/
def bundle (sequence : Int) : PolicyBundle where
  bundleId := "b1"
  authorityId := "authority-1"
  sequence := sequence
  issuedAt := clock 0
  notAfter := clock 21600
  decisionTtlS := 60
  links := [fiber0, lte0]
  trafficClasses := [TrafficClass.ofId "bulk"]
  rules := [.linkDown "R-DOWN"]

theorem cut_clock (seconds : UInt16) : (clock seconds).cut = .ok (clock seconds) :=
  DateTime.cut_of_whole rfl

theorem cut_bundle (sequence : Int) : (bundle sequence).cut = .ok (bundle sequence) :=
  PolicyBundle.cut_eq_ok_iff.mpr ⟨cut_clock 0, cut_clock 21600, rfl, rfl⟩

/-- A bundle published at noon under a nonce. -/
def envelope (sequence : Int) (nonce : UInt8) : Bytes :=
  encodeEnvelope standIn (signed standIn msgPolicyBundle "authority-1" (clock 0)
    (List.replicate 16 nonce) (encodeBundle standIn (bundle sequence)) signer.key)

theorem publish_bundle (sequence : Int) (nonce : UInt8) :
    signer.publish (bundle sequence) (clock 0) (List.replicate 16 nonce) =
      .ok (envelope sequence nonce) := publish_ok List.length_replicate

/-- The floor the authority signed for a site. -/
def signedFloor : Bytes :=
  (signFloor signer "site-1" [fiber0, lte0] [TrafficClass.ofId "bulk"] (clock 0)).toOption.getD []

theorem floor_whole : ∃ floor, floorBundle [fiber0, lte0] (some (clock 0)) "authority-1"
    (some [TrafficClass.ofId "bulk"]) = .ok floor ∧ floor.cut = .ok floor :=
  floorBundle_whole (n := 1787918400) rfl (by decide) _ _ _

theorem sign_signedFloor : signFloor signer "site-1" [fiber0, lte0] [TrafficClass.ofId "bulk"]
    (clock 0) = .ok signedFloor := by
  obtain ⟨floor, hfloor, -⟩ := floor_whole
  obtain ⟨bytes, hbytes⟩ : ∃ bytes, signFloor signer "site-1" [fiber0, lte0]
      [TrafficClass.ofId "bulk"] (clock 0) = .ok bytes := signFloor_ok "site-1" rfl hfloor
  rw [signedFloor, hbytes]
  rfl

/-- A store that was built on that floor over an epoch store that reads an integer. -/
theorem init_ok {epochs : EpochStore} {m : Int} (h : epochs.read = .ok (.int m)) :
    ∃ floor : WireBundle, BundleStore.init (standIn.publicKey signer.key) "authority-1" "site-1"
      signedFloor none epochs none =
        .ok ⟨standIn.publicKey signer.key, "authority-1", "site-1", floor, none, .int m, []⟩ := by
  obtain ⟨floor, hfloor, hcut⟩ := floor_whole
  refine ⟨floor.toWire, BundleStore.init_ok.mpr ⟨floor.toWire, .int m, ?_, rfl, h, rfl⟩⟩
  exact installFloor_signFloor lawful_standIn rfl hfloor sign_signedFloor (cut_clock 0) hcut

section Accept
variable {s : BundleStore standIn} {epochs : EpochStore} {now : DateTime} {m k : Int}
  (sequence : Int) (nonce : UInt8) (hkey : s.trustedKey = standIn.publicKey signer.key)
  (hissuer : s.expectedIssuer = "authority-1")
  (hunseen : s.seenNonces.any (·.eq (.bytes (List.replicate 16 nonce))) = false)
  (hlo : (clock 0).us ≤ now.us) (hhi : now.us < (clock 21600).us)
include hkey hissuer hunseen hlo hhi

/-- A store that trusts the sample authority admits what it published, under a new nonce and
with a sequence that is not at most its own. -/
theorem admitted (hnewer : (Value.int sequence).le s.sequence = .ok false) :
    ∃ e, s.Admitted (envelope sequence nonce) now e (bundle sequence).toWire ∧
      e.nonce = .bytes (List.replicate 16 nonce) := by
  have hadmitted := (admitted_publish lawful_standIn List.length_replicate
    (publish_bundle sequence nonce) hkey hissuer).mpr ⟨clock 0, bundle sequence,
      cut_clock 0, cut_bundle sequence, rfl, rfl,
      timestamp_cut_le_horizon hlo (cut_clock 0), hunseen, rfl, hnewer, hhi⟩
  exact ⟨_, hadmitted, rfl⟩

variable (hm : s.sequence = .int m) (hlt : m < sequence)
include hm hlt

theorem vet : s.vet (envelope sequence nonce) now =
    .ok ((bundle sequence).toWire, .bytes (List.replicate 16 nonce)) := by
  have hnewer : (Value.int sequence).le s.sequence = .ok false := by
    rw [hm, Value.le_int, Except.ok.injEq, decide_eq_false_iff_not]
    exact not_le.mpr hlt
  exact BundleStore.vet_ok.mpr (admitted sequence nonce hkey hissuer hunseen hlo hhi hnewer)

/-- It accepts it, over a mark that can be read and a sequence that can be kept. -/
theorem accept (hread : epochs.read = .ok (.int k)) (hkeep : epochs.Keepable sequence) :
    s.accept epochs {} (envelope sequence nonce) now = (.ok (bundle sequence).toWire,
      s.install (bundle sequence).toWire (.bytes (List.replicate 16 nonce)),
      (epochs.commit {} (.int sequence)).2) := by
  have hvet := vet sequence nonce hkey hissuer hunseen hlo hhi hm hlt
  obtain ⟨envelope, hadmitted, hnonce⟩ := BundleStore.vet_ok.mp hvet
  have hhash : envelope.nonce.hashable = .ok () := by rw [hnonce]; rfl
  have haccept := BundleStore.accept_of_admitted hadmitted hhash (EpochStore.commit_ok hread hkeep)
  rwa [hnonce] at haccept

end Accept

end Sample

end Pilotfish
