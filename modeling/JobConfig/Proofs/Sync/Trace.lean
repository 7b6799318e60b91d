import JobConfig.Proofs.Sync.Divergence

/-!
What a config takes over in a run, beside the updates that succeeded.

A refused update leaves the config alone, but not the store. When a refresh
later shows what such an update left there, the config takes it over, setting by
setting; that is the only way in which a refused update is ever seen again.
-/

namespace JobConfig.Synced

variable {σ : Type} [FaithfulStore σ]

namespace Outcome

/-- What an outcome does to the config, after what had happened before. -/
def Takes (history : List Outcome) (c c' : Config) : Outcome → Prop
  | updated f _ => c' = (f c).value
  | refused _ | idle => c' = c
  | refreshed shown => ∀ t : Setting, c'.settingText t =
      if t.key ∈ shown.map Prod.fst then (leftover history t.key).getD (c.settingText t)
      else c.settingText t

end Outcome

end JobConfig.Synced
