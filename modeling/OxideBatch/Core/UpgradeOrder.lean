import OxideBatch.Core.ComponentMigration
import OxideBatch.Core.DurableState

/-! Both upgrade chains, of application schemas and of codec versions, are free of the order
their edges are declared in. -/

namespace OxideBatch.Core

open OxideBatch.Lib

variable {Checksum T : Type} (format : StateFormat Checksum)

namespace Durable

end Durable

/-- What `upgrade_codec_chain` reports where its walk ends early. -/
def codecChainError (current : CodecVersion) :
    UpgradeError CodecVersion StateCodecError ComponentStateError → ComponentStateError
  | .noPath found => .noCodecUpgradePath found.get current.get
  | .ambiguous source => .ambiguousCodecUpgrade source.get
  | .overshoots target => .codecUpgradeOvershootsCurrent target.get current.get
  | .tooLong => .codecUpgradeChainTooLong maxUpgradeChain
  | .apply error => .codec error
  | .rejected error => error

private theorem upgradeCodecChain_eq (recorded : CodecVersion) (codec : ComponentStateCodec T)
    (payload : List UInt8) :
    upgradeCodecChain format recorded codec payload =
      (upgradeChain codec.codecUpgrades (checkUpgradedComponentState format) codec.codecVersion
        maxUpgradeChain recorded payload).mapError (codecChainError codec.codecVersion) := by
  unfold upgradeCodecChain
  congr 1

/-- Every permutation of the declared edges gives the same result or error; a success has
applied the one rising chain there is from the recorded version to the current one; and
edges that leave no visited version never matter. -/
theorem upgrade_chains_order_free :
    (∀ (kind : Durable.DurableStateKind) (codec : Durable.VersionedStateCodec T)
      (recorded : StateSchemaVersion) (payload : List UInt8), recorded ≤ codec.currentVersion →
      OrderFree codec.upgrades (Durable.checkUpgraded format.fromSlice kind) codec.currentVersion
        maxUpgradeChain recorded payload
        (fun declared => Durable.upgradeSchemaChain format.fromSlice kind recorded
          { codec with upgrades := declared } payload)
        (tracedChain codec.upgrades (Durable.checkUpgraded format.fromSlice kind)
          codec.currentVersion maxUpgradeChain recorded payload).1) ∧
    ∀ (codec : ComponentStateCodec T) (recorded : CodecVersion) (payload : List UInt8),
      recorded ≤ codec.codecVersion →
      OrderFree codec.codecUpgrades (checkUpgradedComponentState format) codec.codecVersion
        maxUpgradeChain recorded payload
        (fun declared => upgradeCodecChain format recorded
          { codec with codecUpgrades := declared } payload)
        (tracedChain codec.codecUpgrades (checkUpgradedComponentState format) codec.codecVersion
          maxUpgradeChain recorded payload).1 :=
  ⟨fun kind codec _ _ within =>
      upgradeChain_orderFree within (Durable.chainError kind codec.currentVersion),
    fun codec _ _ within => by
      simp only [upgradeCodecChain_eq]
      exact upgradeChain_orderFree within (codecChainError codec.codecVersion)⟩

/-- A codec at the third version of its schema that declares its later upgrade first. -/
def stepwiseCodec : Durable.VersionedStateCodec Unit where
  schemaId := ⟨"orders", Eq.refl true⟩
  currentVersion := 3
  upgrades := [⟨2, 3, .ok, by decide⟩,
    ⟨1, 2, .ok, by decide⟩]
  encode _ := .ok ComponentStateEnvelope.emptyObject
  decode _ := .ok ()

/-- Declared the other way round, its two upgrades are applied in the same order. -/
theorem stepwise_upgrades_reversed :
    stepwiseCodec.upgrades.map (·.source.get) = [2, 1] ∧
      Durable.upgradeSchemaChain ComponentStateEnvelope.plainFormat.fromSlice .checkpoint
          1
          { stepwiseCodec with upgrades := stepwiseCodec.upgrades.reverse }
          ComponentStateEnvelope.emptyObject =
        Durable.upgradeSchemaChain ComponentStateEnvelope.plainFormat.fromSlice .checkpoint
          1 stepwiseCodec ComponentStateEnvelope.emptyObject ∧
      (tracedChain stepwiseCodec.upgrades
        (Durable.checkUpgraded ComponentStateEnvelope.plainFormat.fromSlice .checkpoint)
        stepwiseCodec.currentVersion maxUpgradeChain 1
        ComponentStateEnvelope.emptyObject).1.map (·.source.get) = [1, 2] :=
  ⟨rfl, ((upgrade_chains_order_free ComponentStateEnvelope.plainFormat).1 .checkpoint stepwiseCodec
    1 ComponentStateEnvelope.emptyObject (by decide)).permuted _
      (List.reverse_perm _).symm, by rfl⟩

end OxideBatch.Core
