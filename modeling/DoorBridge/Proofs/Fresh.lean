import DoorBridge.Arbiter.Script
import DoorBridge.Proofs.Boot

/-!
# Proofs.Fresh — what a stored zero says

A boot that finds zero goes on from zero.  The counter is saved lazily, so the store keeps its zero until a flush has
ten codes to save, or any code and a restart coming (`Flushed.Saves`).  Every boot that ends before that leaves a zero
behind, and the next one sends the same codes again (`Chain.sends_from_zero`): a stored zero means that no code was used only
in the histories of `zero_unused_iff`.
-/

namespace DoorBridge

/-- Whether a flush saves the counter of a boot that started from zero. -/
def Flushed.Saves (f : Flushed) : Prop := saveInterval ≤ f.codesUsed ∨ f.forced = true ∧ 0 < f.codesUsed

instance (f : Flushed) : Decidable f.Saves := inferInstanceAs (Decidable (_ ∨ _))

theorem Flushed.idle_zero_iff (f : Flushed) : f.Idle 0 ↔ ¬ f.Saves := by
  have hsteps : bootSteps 0 = saveInterval := by decide
  rw [Idle, Saves, hsteps, not_or, not_and, Nat.not_le]
  refine and_congr_right fun _ => ?_
  constructor
  · intro h hforced
    exact Nat.not_lt.mpr (Nat.le_zero.mpr (h hforced))
  · intro h hforced
    exact Nat.eq_zero_of_not_pos (h hforced)

/-! ## Chains -/

variable {stored last : Option UInt32} {bs : List Bridge}

/-- A boot that finds zero, or nothing, goes on from zero. -/
theorem bootCounter_of_zero (h : stored.getD 0 = 0) : Identity.bootCounter stored = 0 := by
  rw [Identity.bootCounter, h]
  rfl

/-- A stored code other than zero is never replaced by zero. -/
theorem Chain.advanced (h : Chain stored bs last) (hadvanced : 0 < Identity.bootCounter stored) :
    0 < Identity.bootCounter last := by
  induction h with
  | nil => exact hadvanced
  | @cons stored last p b rest _ _ ih =>
    apply ih
    rw [bootCounter_saved (bootCounter_lt stored) (codeAfter_pos hadvanced p)]
    exact codeAfter_pos hadvanced _

/-- A boot from zero leaves a zero behind exactly if none of its flushes had a code to save. -/
theorem Bridge.OnCourse.zero_iff {b : Bridge} {p : Nat} (h : b.OnCourse 0 p) :
    p = 0 ↔ ∀ f ∈ b.flushes, ¬ f.Saves := by
  rw [h.flushes]
  exact forall₂_congr fun f _ => f.idle_zero_iff

/-- What is stored after some boots from zero: zero as long as no flush had a code to save. -/
theorem Chain.zero_iff (h : Chain stored bs last) (hzero : stored.getD 0 = 0) :
    last.getD 0 = 0 ↔ ∀ b ∈ bs, ∀ f ∈ b.flushes, ¬ f.Saves := by
  induction h with
  | nil => exact ⟨fun _ b hb => absurd hb List.not_mem_nil, fun _ => hzero⟩
  | @cons stored last p b rest hcourse hnext ih =>
    rw [bootCounter_of_zero hzero] at hcourse hnext ih
    rw [List.forall_mem_cons, ← hcourse.zero_iff]
    by_cases hp : p = 0
    · subst hp
      rw [ih rfl]
      exact ⟨fun h => ⟨rfl, h⟩, fun h => h.2⟩
    · obtain ⟨n, rfl⟩ := Nat.exists_eq_succ_of_ne_zero hp
      have hpos : 0 < codeAfter 0 (n + 1) := codeAfter_succ_pos 0 n
      have hlast : 0 < Identity.bootCounter last := by
        apply hnext.advanced
        rw [bootCounter_saved (by decide) hpos, ← codeAfter_add]
        exact codeAfter_pos hpos _
      refine ⟨fun h => ?_, fun h => absurd h.1 hp⟩
      rw [bootCounter_of_zero h] at hlast
      exact absurd hlast (Nat.lt_irrefl 0)

/-- A boot leaves a stored code behind. -/
theorem Chain.last_ne_none (h : Chain stored bs last) (hsome : stored ≠ none ∨ bs ≠ []) : last ≠ none := by
  induction h with
  | nil => exact hsome.resolve_right fun hne => hne rfl
  | cons _ _ ih => exact ih (.inl (Option.some_ne_none _))

/-- As long as no flush has a code to save, every boot sends the codes from zero on. -/
theorem Chain.sends_from_zero (h : Chain stored bs last) (hzero : stored.getD 0 = 0)
    (hidle : ∀ b ∈ bs, ∀ f ∈ b.flushes, ¬ f.Saves) :
    ∀ b ∈ bs, b.codesUsed ≤ saveInterval ∧ ∀ code < b.codesUsed, ∃ row ∈ b.rows, codeOf? row = some code := by
  induction h with
  | nil => exact fun b hb => absurd hb List.not_mem_nil
  | @cons stored last p b rest hcourse hnext ih =>
    rw [bootCounter_of_zero hzero] at hcourse ih
    obtain ⟨hfirst, hlater⟩ := List.forall_mem_cons.mp hidle
    obtain rfl : p = 0 := hcourse.zero_iff.mpr hfirst
    have hwithin : b.codesUsed ≤ saveInterval := by
      have h := hcourse.within
      rwa [Nat.zero_add, codeAfter, show bootSteps 0 = saveInterval by decide] at h
    refine List.forall_mem_cons.mpr ⟨⟨hwithin, fun code hcode => ?_⟩, ih rfl hlater⟩
    obtain ⟨row, hrow, hcarried⟩ := hcourse.carried code hcode
    rw [saveInterval] at hwithin
    rw [codeAfter_zero (by rw [counterBound_val]; omega)] at hcarried
    exact ⟨row, hrow, hcarried⟩

/-! ## Histories -/

variable {β : Type} [Bus β] {store : MemoryStore}

/-- **When a stored zero means that no code was used**: in the histories that used none, and in those where a flush had
a code to save, and in no others.  In the others every boot sends the codes from zero on. -/
theorem zero_unused_iff {boots : List (Boot β)} (hreliable : store.Reliable .rollingCode)
    (hempty : readWord store .rollingCode = .ok none) (hboots : ∀ boot ∈ boots, boot.Ordinary) :
    ((readWord (storeAfter store boots) .rollingCode = .ok (some 0) → ∀ b ∈ history store boots, b.codesUsed = 0) ↔
        (∀ b ∈ history store boots, b.codesUsed = 0) ∨ ∃ b ∈ history store boots, ∃ f ∈ b.flushes, f.Saves) ∧
      ((¬ ∃ b ∈ history store boots, ∃ f ∈ b.flushes, f.Saves) → ∀ b ∈ history store boots,
        b.codesUsed ≤ saveInterval ∧ ∀ code < b.codesUsed, ∃ row ∈ b.rows, codeOf? row = some code) := by
  have hnone : (¬ ∃ b ∈ history store boots, ∃ f ∈ b.flushes, f.Saves) →
      ∀ b ∈ history store boots, ∀ f ∈ b.flushes, ¬ f.Saves :=
    fun h b hb f hf hsaves => h ⟨b, hb, f, hf, hsaves⟩
  obtain ⟨last, hlast, hchain⟩ := chain_history boots ⟨hreliable, hempty⟩ hboots
  refine ⟨?_, fun h => hchain.sends_from_zero rfl (hnone h)⟩
  rw [hlast.read]
  constructor
  · intro hfresh
    by_cases hsaves : ∃ b ∈ history store boots, ∃ f ∈ b.flushes, f.Saves
    · exact .inr hsaves
    refine .inl fun b hb => ?_
    obtain ⟨w, rfl⟩ := Option.ne_none_iff_exists'.mp (hchain.last_ne_none (.inr (List.ne_nil_of_mem hb)))
    have hw : w = 0 := (hchain.zero_iff rfl).mpr (hnone hsaves)
    rw [hw] at hfresh
    exact hfresh rfl b hb
  · rintro (hunused | ⟨b, hb, f, hf, hsaves⟩) hzero
    · exact hunused
    · cases hzero
      exact absurd hsaves ((hchain.zero_iff rfl).mp rfl b hb f hf)

/-- A boot that sends a status request in each of ten passes. -/
def tenRequests : Boot BusScript :=
  .full {} 0 0 ((List.range 10).flatMap fun i => [.request .getStatus, .service {} (1000 * i)]) .idle

/-- After ten codes the store holds the counter, and holds no zero. -/
theorem zero_unused_iff_ten :
    readWord (storeAfter {} [tenRequests]) .rollingCode = .ok (some 10) ∧
      (readWord (storeAfter {} [tenRequests]) .rollingCode = .ok (some 0) →
        ∀ b ∈ history {} [tenRequests], b.codesUsed = 0) := by
  refine ⟨by decide +kernel, ?_⟩
  have hboots : ∀ boot ∈ [tenRequests], boot.Ordinary := by
    intro boot hboot
    rw [List.mem_singleton.mp hboot]
    exact ⟨rfl, by decide⟩
  have hsaves : ∃ b ∈ history {} [tenRequests], ∃ f ∈ b.flushes, f.Saves := by decide +kernel
  exact (zero_unused_iff (fun _ => rfl) rfl hboots).1.mpr (.inr hsaves)

/-- Two boots over an empty store, each with one pass. -/
def freshBoots : List (Boot BusScript) :=
  [.full {} 0 0 [.service {} 0] .idle, .full {} 0 0 [.service {} 1000] .idle]

/-- A stored zero does not mean that no code was used: both boots use the code 0 and leave a zero behind. -/
theorem zero_stored_after_use :
    (∀ boot ∈ freshBoots, boot.Ordinary) ∧
      readWord (storeAfter {} freshBoots) .rollingCode = .ok (some 0) ∧
      (history {} freshBoots).map (fun b => (b.firstCounter, b.codesUsed, b.rows.map codeOf?)) =
        [(0, 1, [some 0]), (0, 1, [some 0])] := by
  refine ⟨?_, ?_, by decide +kernel⟩
  · simp [freshBoots, Boot.Ordinary, BootStep.isReset]
  · decide +kernel

end DoorBridge
