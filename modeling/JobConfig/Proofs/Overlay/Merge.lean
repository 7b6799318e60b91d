import JobConfig.Proofs.Overlay.Outcome

/-!
Overlays laid one on top of the other. What a single overlay does is a relation
between two configs, setting by setting, in which the order of the texts has no
part (`Laid`); so overlays compose as their maps merge, and the laws of overlays
are laws of look-ups.
-/

namespace JobConfig

namespace StringMap

variable {β : Type}

/-- The entries of both maps; where both have one, that of the second. -/
def merge (m n : StringMap β) : StringMap β :=
  m.insertAll n.entries

@[simp] theorem get?_merge (m n : StringMap β) (k : String) :
    (m.merge n).get? k = (n.get? k).or (m.get? k) := by
  rw [merge, get?_insertAll, ← get?_ofList, ofList_entries]

end StringMap

namespace Config

variable {b c d : Config} {s t : StringMap String}

/-- `d` holds what the texts say, and what `c` held where they say nothing. -/
structure Laid (c : Config) (settings : StringMap String) (d : Config) : Prop where
  said : ∀ (x : Setting) (text : String), settings.get? x.key = some text →
    x.parse text = .ok (d.get x)
  kept : ∀ x : Setting, settings.get? x.key = none → d.get x = c.get x

theorem laid_of_configure (h : (c.configure s).value = .ok d) : Laid c s d where
  said := (get_of_configure h).1
  kept := (get_of_configure h).2

theorem Laid.unique {d' : Config} (h : Laid c s d) (h' : Laid c s d') : d = d' := by
  refine ext_get fun x => ?_
  cases hget : s.get? x.key with
  | none => rw [h.kept x hget, h'.kept x hget]
  | some text =>
    have hparse := h.said x text hget
    rw [h'.said x text hget] at hparse
    exact (Except.ok.inj hparse).symm

/-- Texts that can be read at all can be laid over any config. -/
theorem Laid.exists_configure (h : Laid c s d) (b : Config) :
    ∃ e, (b.configure s).value = .ok e :=
  (b.configure_eq_ok_iff s).2 <| (forall_accepted_iff s).2 fun x text hget =>
    ⟨d.get x, h.said x text hget⟩

theorem configure_eq_ok_iff_laid : (c.configure s).value = .ok d ↔ Laid c s d := by
  constructor
  · exact laid_of_configure
  · intro h
    obtain ⟨e, he⟩ := h.exists_configure c
    rw [he, h.unique (laid_of_configure he)]

/-! ### Two overlays -/

theorem Laid.merge (hs : Laid b s c) (ht : Laid c t d) : Laid b (s.merge t) d where
  said x text hget := by
    rw [StringMap.get?_merge] at hget
    cases htop : t.get? x.key with
    | some later =>
      obtain rfl : later = text := by simpa [htop] using hget
      exact ht.said x later htop
    | none =>
      rw [htop, Option.none_or] at hget
      rw [ht.kept x htop]
      exact hs.said x text hget
  kept x hget := by
    rw [StringMap.get?_merge, Option.or_eq_none_iff] at hget
    rw [ht.kept x hget.1, hs.kept x hget.2]

theorem Laid.again (h : Laid c s d) : Laid d s d :=
  ⟨h.said, fun _ _ => rfl⟩

/-- Maps without a common key can be laid in the other order just as well. -/
theorem Laid.swap (hdisjoint : ∀ k, s.get? k = none ∨ t.get? k = none) (hs : Laid b s c)
    (ht : Laid c t d) : ∃ c', Laid b t c' ∧ Laid c' s d := by
  obtain ⟨c', hc'⟩ := ht.exists_configure b
  have ht' := laid_of_configure hc'
  refine ⟨c', ht', fun x text hget => ?_, fun x hget => ?_⟩
  · have hnone : t.get? x.key = none := (hdisjoint x.key).resolve_left (by simp [hget])
    rw [ht.kept x hnone]
    exact hs.said x text hget
  · cases htop : t.get? x.key with
    | none => rw [ht.kept x htop, hs.kept x hget, ht'.kept x htop]
    | some text =>
      have hparse := ht.said x text htop
      rw [ht'.said x text htop] at hparse
      exact (Except.ok.inj hparse).symm

/-- Two overlays after each other are one overlay with their merge. So an overlay
that is repeated changes nothing more, overlays without a common key may come in
either order, and the canonical texts of a config undo any overlay of it. -/
theorem overlay_algebra (b : Config) (s t : StringMap String) :
    (∀ c d, (b.configure s).value = .ok c → (c.configure t).value = .ok d →
        (b.configure (s.merge t)).value = .ok d) ∧
      (∀ c, (b.configure s).value = .ok c → (c.configure s).value = .ok c) ∧
      ((∀ k, s.get? k = none ∨ t.get? k = none) → ∀ d,
        (∃ c, (b.configure s).value = .ok c ∧ (c.configure t).value = .ok d) ↔
          ∃ c, (b.configure t).value = .ok c ∧ (c.configure s).value = .ok d) ∧
      ∀ c, (b.configure s).value = .ok c → (c.configure b.toSettings).value = .ok b := by
  simp only [configure_eq_ok_iff_laid]
  refine ⟨fun c d hs ht => hs.merge ht, fun c hs => hs.again, ?_, ?_⟩
  · intro hdisjoint d
    constructor
    · rintro ⟨c, hs, ht⟩
      exact hs.swap hdisjoint ht
    · rintro ⟨c, ht, hs⟩
      exact ht.swap (fun k => (hdisjoint k).symm) hs
  · intro c _
    exact laid_of_configure (configure_toSettings c b)

end Config

end JobConfig
