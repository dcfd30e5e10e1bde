import Pilotfish.Signer
import Mathlib.Data.Prod.Lex

/-!
# What an installed floor was checked for

The constructor of a store checks a signed floor much as `accept` checks a bundle, but for its
stamp, for the authority its bundle names, and for the links its bundle holds.

Results:
1. `linkInventoryHash_perm`: the hash of an inventory does not tell in what order it came.
2. `floorVouched_iff`: which installed floors would have passed the checks of a bundle, and hold
   the inventory the site presents.
-/

namespace Pilotfish
open Python

/-! ## Inventories -/

/-- What an inventory is sorted by. -/
def inventoryKey (link : Link) : String ×ₗ String ×ₗ Bool ×ₗ Bool ×ₗ List String :=
  toLex (link.id, toLex (link.type, toLex (link.metered, toLex (link.encryptedBelow,
    link.jurisdictions))))

def keyRow (key : String ×ₗ String ×ₗ Bool ×ₗ Bool ×ₗ List String) : Value :=
  .list [.str key.1, .str key.2.1, .bool key.2.2.1, .bool key.2.2.2.1,
    .list (key.2.2.2.2.map .str)]

theorem compares_keyRow : Value.Compares keyRow where
  eq a b := by
    obtain ⟨a₁, a₂, a₃, a₄, a₅⟩ := a
    obtain ⟨b₁, b₂, b₃, b₄, b₅⟩ := b
    show Value.eq.eqs _ _ = true ↔ (a₁, a₂, a₃, a₄, a₅) = (b₁, b₂, b₃, b₄, b₅)
    simp only [Value.eq.eqs, Value.compares_str.eq, Value.compares_bool.eq,
      Value.compares_str.list.eq, Bool.and_true, Bool.and_eq_true, Prod.mk.injEq]
  lt a b := by
    simp only [Prod.Lex.lt_iff]
    exact Value.compares_str.lts_cons _ _ (Value.compares_str.lts_cons _ _
      (Value.compares_bool.lts_cons _ _ (Value.compares_bool.lts_cons _ _
        (Value.compares_str.list.lts_last _ _))))

theorem map_inventoryRow (links : List Link) :
    links.map inventoryRow = (links.map inventoryKey).map keyRow := by
  rw [List.map_map]
  rfl

section Inventories
variable {S B : Type} [OnWire S] [OnWire B] {own : List (Link S B)} {links : List Link}

/-- The rows of two inventories do not collide once sorted. -/
def InventoriesApart (rt : Runtime) (own : List (Link S B)) (links : List Link) : Prop :=
  ∀ rows rows', Value.sorted (own.map inventoryRow) = .ok rows →
    Value.sorted (links.map inventoryRow) = .ok rows' →
    rt.CollisionFree [.list rows, .list rows']

/-- The hash of an inventory does not depend on its order. -/
theorem linkInventoryHash_perm {rt : Runtime}
    (h : (own.map inventoryRow).Perm (links.map inventoryRow)) :
    linkInventoryHash rt own = linkInventoryHash rt links := by
  rw [map_inventoryRow] at h
  rw [linkInventoryHash, linkInventoryHash, compares_keyRow.sorted_perm h, map_inventoryRow]

/-- Inventories of one hash have the same rows. -/
theorem perm_of_linkInventoryHash {rt : Runtime} (free : InventoriesApart rt own links)
    {hash : String} (hown : linkInventoryHash rt own = .ok hash)
    (hlinks : linkInventoryHash rt links = .ok hash) :
    (own.map inventoryRow).Perm (links.map inventoryRow) := by
  obtain ⟨rows, hrows, hown⟩ := bind_eq_ok_iff.mp hown
  obtain ⟨rows', hrows', hlinks⟩ := bind_eq_ok_iff.mp hlinks
  have hdigest : rt.digest (.list rows) = rt.digest (.list rows') :=
    (Runtime.hexdigest_eq_ok_iff.mp hown).2.trans (Runtime.hexdigest_eq_ok_iff.mp hlinks).2.symm
  have hsame := (free rows rows' hrows hrows').digest_injective (by simp) (by simp) hdigest
  cases hsame
  exact (Value.sorted_perm hrows).symm.trans (Value.sorted_perm hrows')

end Inventories

/-! ## Floors -/

variable {rt : Runtime}

/-- At a clock a floor was admitted as a bundle is, and its links are the inventory presented. -/
structure BundleStore.FloorVouched (s : BundleStore rt) (signedFloor : Bytes) (now : DateTime)
    (floorLinks : Option (List Link)) (envelope : Envelope) : Prop where
  decoded : decodeEnvelope rt signedFloor = .ok envelope
  typed : envelope.msgType = .str msgFloorConfig
  issued : envelope.issuer = .str s.expectedIssuer
  stamped : envelope.issuedAt.timestamp ≤ horizon now
  verified : verify rt envelope s.trustedKey = .ok ()
  named : ∃ inventoryHash, decodeFloorConfig rt envelope.payload =
    .ok (.str s.siteId, inventoryHash, s.floor)
  authority : s.floor.authorityId = .str s.expectedIssuer
  inventory : ∀ links, floorLinks = some links →
    (s.floor.links.map inventoryRow).Perm (links.map inventoryRow)

/-- A signed floor that is not stamped ahead of a clock, holds a bundle of the authority, and was
bound to the inventory of that bundle. -/
structure FloorCoherent (rt : Runtime) (authority : String) (signedFloor : Bytes) (now : DateTime)
    (envelope : Envelope) (floor : WireBundle) : Prop where
  decoded : decodeEnvelope rt signedFloor = .ok envelope
  stamped : envelope.issuedAt.timestamp ≤ horizon now
  authority : floor.authorityId = .str authority
  bound : ∃ siteId inventoryHash, decodeFloorConfig rt envelope.payload =
      .ok (siteId, .str inventoryHash, floor) ∧
    linkInventoryHash rt floor.links = .ok inventoryHash

/-- The constructor is given a clock and does not read it. -/
theorem floorVouched_iff {trustedKey : rt.PublicKey} {expectedIssuer siteId : String}
    {signedFloor : Bytes} {floorLinks : Option (List Link)} {epochs : EpochStore}
    {readFault : Option Exc} {s : BundleStore rt}
    (hinit : BundleStore.init trustedKey expectedIssuer siteId signedFloor floorLinks epochs
      readFault = .ok s)
    (free : ∀ links, floorLinks = some links → InventoriesApart rt s.floor.links links)
    (now : DateTime) :
    (∃ envelope, s.FloorVouched signedFloor now floorLinks envelope) ↔
    ∃ envelope floor, FloorCoherent rt expectedIssuer signedFloor now envelope floor := by
  obtain ⟨floor, sequence, hfloor, -, -, rfl⟩ := BundleStore.init_ok.mp hinit
  obtain ⟨envelope, hinstalled⟩ := BundleStore.installFloor_ok.mp hfloor
  obtain ⟨inventoryHash, hpayload, hpresented⟩ := hinstalled.bound
  constructor
  · rintro ⟨envelope', hvouched⟩
    obtain rfl : envelope = envelope' :=
      Except.ok.inj (hinstalled.decoded.symm.trans hvouched.decoded)
    refine ⟨envelope, floor, hinstalled.decoded, hvouched.stamped, hvouched.authority,
      .str siteId, inventoryHash, hpayload, ?_⟩
    cases hlinks : floorLinks with
    | none =>
      rw [hlinks] at hpresented
      exact hpresented
    | some links =>
      rw [hlinks] at hpresented
      rw [linkInventoryHash_perm (hvouched.inventory links hlinks)]
      exact hpresented
  · rintro ⟨envelope', floor', hcoherent⟩
    obtain rfl : envelope = envelope' :=
      Except.ok.inj (hinstalled.decoded.symm.trans hcoherent.decoded)
    obtain ⟨site, hash, hpayload', hown⟩ := hcoherent.bound
    cases hpayload.symm.trans hpayload'
    refine ⟨envelope, hinstalled.decoded, hinstalled.typed, hinstalled.issued, hcoherent.stamped,
      hinstalled.verified, ⟨_, hpayload⟩, hcoherent.authority, ?_⟩
    intro links hlinks
    rw [hlinks] at hpresented
    exact perm_of_linkInventoryHash (free links hlinks) hown hpresented

namespace Sample

/-- The hash of an inventory. -/
def inventoryHash (links : List Link) : String := (linkInventoryHash standIn links).toOption.getD ""

theorem linkInventoryHash_sample (links : List Link) :
    linkInventoryHash standIn links = .ok (inventoryHash links) := by
  obtain ⟨hash, hhash⟩ := linkInventoryHash_ok standIn links
  rw [inventoryHash, hhash]
  rfl

/-- A floor the authority signs for a site and the inventory of some links. -/
def floorConfig (seconds : UInt16) (links : List Link) (floor : PolicyBundle) : Envelope :=
  signed standIn msgFloorConfig "authority-1" (clock seconds) defaultNonce
    (encodeFloorConfig standIn "site-1" (inventoryHash links) floor) signer.key

/-- A bundle of another authority. -/
def strayBundle : PolicyBundle := { bundle 0 with authorityId := "authority-2" }

section FloorConfig
variable (seconds : UInt16) (links : List Link) {floor : PolicyBundle}
  (hcut : floor.cut = .ok floor)

theorem decodeEnvelope_floorConfig (floor : PolicyBundle) :
    decodeEnvelope standIn (encodeEnvelope standIn (floorConfig seconds links floor)) =
      .ok (floorConfig seconds links floor) := by
  rw [floorConfig, decodeEnvelope_encodeEnvelope lawful_standIn plain_signed]
  show (clock seconds).cut.map _ = _
  rw [cut_clock]
  rfl

include hcut

theorem decodeFloorConfig_floorConfig :
    decodeFloorConfig standIn (floorConfig seconds links floor).payload =
      .ok (.str "site-1", .str (inventoryHash links), floor.toWire) := by
  show decodeFloorConfig standIn (.bytes (encodeFloorConfig _ _ _ _)) = _
  rw [decodeFloorConfig_encodeFloorConfig lawful_standIn, hcut]
  rfl

/-- A site that presents those links installs it. -/
theorem init_floorConfig : BundleStore.init (standIn.publicKey signer.key) "authority-1" "site-1"
    (encodeEnvelope standIn (floorConfig seconds links floor)) (some links)
    (.memory (.int noEpoch)) none = .ok ⟨standIn.publicKey signer.key, "authority-1", "site-1",
      floor.toWire, none, .int noEpoch, []⟩ := by
  refine BundleStore.init_ok.mpr ⟨floor.toWire, .int noEpoch, ?_, rfl, rfl, rfl⟩
  exact BundleStore.installFloor_ok.mpr ⟨floorConfig seconds links floor,
    decodeEnvelope_floorConfig seconds links floor, rfl, rfl, verify_sign lawful_standIn rfl rfl,
    inventoryHash links, decodeFloorConfig_floorConfig seconds links hcut,
    linkInventoryHash_sample links⟩

end FloorConfig

end Sample

/-- The floor of another authority, stamped six hours ahead, for two links and bound to one: a site
with that one link installs it. -/
theorem stray_floor_installed :
    let links := [Sample.fiber0]
    let envelope := Sample.floorConfig 21600 links Sample.strayBundle
    let signedFloor := encodeEnvelope standIn envelope
    ∃ s : BundleStore standIn, BundleStore.init (standIn.publicKey Sample.signer.key) "authority-1"
        "site-1" signedFloor (some links) (.memory (.int noEpoch)) none = .ok s ∧
      InventoriesApart standIn s.floor.links links ∧
      ¬envelope.issuedAt.timestamp ≤ horizon (Sample.clock 0) ∧
      s.floor.authorityId ≠ .str s.expectedIssuer ∧
      ¬(s.floor.links.map inventoryRow).Perm (links.map inventoryRow) ∧
      ¬∃ envelope, s.FloorVouched signedFloor (Sample.clock 0) (some links) envelope := by
  intro links envelope signedFloor
  have hcut : Sample.strayBundle.cut = .ok Sample.strayBundle :=
    PolicyBundle.cut_eq_ok_iff.mpr ⟨Sample.cut_clock 0, Sample.cut_clock 21600, rfl, rfl⟩
  have hlate : ¬envelope.issuedAt.timestamp ≤ horizon (Sample.clock 0) := by decide +kernel
  refine ⟨_, Sample.init_floorConfig 21600 links hcut, ?_, hlate, ?_, ?_, ?_⟩
  · intro rows rows' hrows hrows'
    have hown : Value.sorted (Sample.strayBundle.toWire.links.map inventoryRow) =
        .ok [inventoryRow Sample.fiber0, inventoryRow Sample.lte0] := by rfl
    have hlinks : Value.sorted (links.map inventoryRow) = .ok [inventoryRow Sample.fiber0] := by rfl
    cases hown.symm.trans hrows
    cases hlinks.symm.trans hrows'
    have hne : standIn.sha256 (standIn.encoding (.list [inventoryRow Sample.fiber0,
        inventoryRow Sample.lte0])) ≠
      standIn.sha256 (standIn.encoding (.list [inventoryRow Sample.fiber0])) := by decide +kernel
    simp [Runtime.CollisionFree, hne, hne.symm]
  · intro hauthority
    exact absurd (Value.str.inj hauthority) (by decide)
  · intro hperm
    exact absurd hperm.length_eq (by decide)
  · rintro ⟨envelope', hvouched⟩
    have hdecode := Sample.decodeEnvelope_floorConfig 21600 links Sample.strayBundle
    obtain rfl : envelope = envelope' := Except.ok.inj (hdecode.symm.trans hvouched.decoded)
    exact hlate hvouched.stamped

/-- The inventory is presented in another order. -/
theorem floorVouched_sample :
    let links := [Sample.lte0, Sample.fiber0]
    let signedFloor := encodeEnvelope standIn (Sample.floorConfig 0 links (Sample.bundle 0))
    ∃ s : BundleStore standIn, BundleStore.init (standIn.publicKey Sample.signer.key) "authority-1"
        "site-1" signedFloor (some links) (.memory (.int noEpoch)) none = .ok s ∧
      ∃ envelope, s.FloorVouched signedFloor (Sample.clock 0) (some links) envelope := by
  intro links signedFloor
  have hinit := Sample.init_floorConfig 0 links (Sample.cut_bundle 0)
  have hperm : ((Sample.bundle 0).toWire.links.map inventoryRow).Perm (links.map inventoryRow) :=
    .swap _ _ _
  refine ⟨_, hinit, (floorVouched_iff hinit ?_ (Sample.clock 0)).mpr ?_⟩
  · rintro _ ⟨⟩ rows rows' hrows hrows'
    rw [map_inventoryRow] at hperm hrows'
    obtain rfl : rows = rows' :=
      Except.ok.inj (hrows.symm.trans ((compares_keyRow.sorted_perm hperm).trans hrows'))
    simp [Runtime.CollisionFree]
  · refine ⟨_, _, Sample.decodeEnvelope_floorConfig 0 links (Sample.bundle 0), ?_, rfl, _, _,
      Sample.decodeFloorConfig_floorConfig 0 links (Sample.cut_bundle 0), ?_⟩
    · exact timestamp_cut_le_horizon le_rfl (Sample.cut_clock 0)
    · rw [linkInventoryHash_perm hperm]
      exact Sample.linkInventoryHash_sample links

end Pilotfish
