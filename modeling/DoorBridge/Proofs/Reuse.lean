import DoorBridge.Arbiter.Script
import DoorBridge.Proofs.Boot

/-!
# Proofs.Reuse — no rolling code is sent in two boots

Codes are counted from the first stored one.  A boot sends codes from a stretch of the cycle that ends before the next
boot starts (`Stretches`, `Chain.stretches`), and as long as a history steps over less than a whole round, different
places on the cycle are different codes (`codes_not_reused`).
-/

namespace DoorBridge

/-- Every row carries a code from a stretch of the cycle, and none from past the top. -/
def Bridge.SendsWithin (origin lo hi top : Nat) (b : Bridge) : Prop :=
  ∀ row ∈ b.rows, ∃ m, lo ≤ m ∧ m < hi ∧ m ≤ top ∧ codeOf? row = some (codeAfter origin m)

/-- The boots send codes from stretches that lie one after the other. -/
def Stretches (origin top : Nat) : Nat → List Bridge → Prop
  | _, [] => True
  | lo, b :: rest => ∃ hi, lo ≤ hi ∧ b.SendsWithin origin lo hi top ∧ Stretches origin top hi rest

variable {origin top lo : Nat}

theorem Stretches.mem {bs : List Bridge} (h : Stretches origin top lo bs) {b : Bridge} (hb : b ∈ bs) :
    ∀ row ∈ b.rows, ∃ m, lo ≤ m ∧ m ≤ top ∧ codeOf? row = some (codeAfter origin m) := by
  induction bs generalizing lo with
  | nil => exact absurd hb List.not_mem_nil
  | cons first rest ih =>
    obtain ⟨hi, hle, hfirst, hrest⟩ := h
    rcases List.mem_cons.mp hb with rfl | hb
    · intro row hrow
      obtain ⟨m, hlo, -, htop, hcode⟩ := hfirst row hrow
      exact ⟨m, hlo, htop, hcode⟩
    · intro row hrow
      obtain ⟨m, hlo, htop, hcode⟩ := ih hrest hb row hrow
      exact ⟨m, hle.trans hlo, htop, hcode⟩

/-- Stretches of less than a whole round have no code in common. -/
theorem Stretches.pairwise {bs : List Bridge} (hpos : 0 < origin) (hlt : origin < counterBound)
    (h : Stretches origin top lo bs) (htop : top < cycleLength) :
    bs.Pairwise fun earlier later => ∀ row ∈ earlier.rows, ∀ row' ∈ later.rows, codeOf? row ≠ codeOf? row' := by
  induction bs generalizing lo with
  | nil => exact List.Pairwise.nil
  | cons first rest ih =>
    obtain ⟨hi, -, hfirst, hrest⟩ := h
    refine List.Pairwise.cons ?_ (ih hrest)
    intro later hlater row hrow row' hrow'
    obtain ⟨m, -, hm, -, hcode⟩ := hfirst row hrow
    obtain ⟨n, hn, hntop, hcode'⟩ := hrest.mem hlater row' hrow'
    rw [hcode, hcode']
    intro hsame
    exact codeAfter_ne hpos hlt (show m < n by omega) (by omega) (Option.some.inj hsame)

/-- **The boots of a chain send from stretches that lie one after the other**, if its first boot starts at `s` and the
counter before it was at `q`. -/
theorem Chain.stretches {stored last : Option UInt32} {bs : List Bridge} (hpos : 0 < origin)
    (hlt : origin < counterBound) (h : Chain stored bs last) {s q : Nat}
    (hstart : Identity.bootCounter stored = codeAfter origin s) (hq : q ≤ s) (hskip : s ≤ q + 10) :
    Stretches origin (q + codesStepped (codeAfter origin q) bs) s bs := by
  induction h generalizing s q with
  | nil => trivial
  | @cons stored last p b rest hcourse _ ih =>
    rw [hstart] at hcourse ih
    -- the next boot starts past this one's save point, and its counter was at `s + b.codesUsed`
    have hpos' : 0 < codeAfter (codeAfter origin s) p := codeAfter_pos (codeAfter_pos hpos s) p
    have hnext := bootCounter_saved (codeAfter_lt hlt s) hpos'
    have hwithin := hcourse.within
    have hsteps := (bootSteps_le (codeAfter (codeAfter origin s) p)).2
    have hsaved := hcourse.saved_le
    rw [codeAfter_add origin s (p + _)] at hnext
    have hrest := ih hnext (show s + b.codesUsed ≤ _ by omega) (by omega)
    have hgap : codesBetween (codeAfter origin q) b.firstCounter = s - q := by
      rw [hcourse.first, show s = q + (s - q) by omega]
      rw [codesBetween_codeAfter hpos hlt (by rw [cycleLength_val]; omega)]
      omega
    have htop : q + codesStepped (codeAfter origin q) (b :: rest) =
        s + b.codesUsed + codesStepped (codeAfter origin (s + b.codesUsed)) rest := by
      rw [codesStepped, hgap, hcourse.rolling, codeAfter_add]
      omega
    rw [htop]
    refine ⟨_, ?_, ?_, hrest⟩
    · omega
    · intro row hrow
      obtain ⟨m, hm, hahead, hcode⟩ := hcourse.rows row hrow
      rw [codeAfter_add origin s m] at hcode
      exact ⟨s + m, by omega, by omega, by omega, hcode⟩

/-- **No code that a frame of one boot carries is carried by a frame of a later boot**, as long as less than a whole
round of codes was used or skipped.  A frame counts as soon as the bus driver was given it. -/
theorem codes_not_reused {β : Type} [Bus β] {store : MemoryStore} {stored : UInt32} {boots : List (Boot β)}
    (hreliable : store.Reliable .rollingCode) (hstored : readWord store .rollingCode = .ok (some stored))
    (hadvanced : stored.toNat % counterBound ≠ 0) (hboots : ∀ boot ∈ boots, boot.Ordinary)
    (hround : codesStepped (stored.toNat % counterBound) (history store boots) < cycleLength) :
    (∀ b ∈ history store boots, ∀ row ∈ b.rows, ∃ code, codeOf? row = some code) ∧
      (history store boots).Pairwise fun earlier later =>
        ∀ row ∈ earlier.rows, ∀ row' ∈ later.rows, codeOf? row ≠ codeOf? row' := by
  have hpos : 0 < stored.toNat % counterBound := Nat.pos_of_ne_zero hadvanced
  have hlt : stored.toNat % counterBound < counterBound := Nat.mod_lt _ (by decide)
  have hstart := bootCounter_stored (n := 0) hlt hpos (show stored.toNat % counterBound = _ from rfl)
  obtain ⟨last, -, hchain⟩ := chain_history boots ⟨hreliable, hstored⟩ hboots
  have hstretches := hchain.stretches hpos hlt hstart (Nat.zero_le _)
    (Nat.add_le_add_left (bootSteps_le _).2 0)
  rw [codeAfter, Nat.zero_add] at hstretches
  refine ⟨fun b hb row hrow => ?_, hstretches.pairwise hpos hlt hround⟩
  obtain ⟨m, -, -, hcode⟩ := hstretches.mem hb row hrow
  exact ⟨_, hcode⟩

/-- A store whose code is a few steps short of the wrap. -/
def wrapStore : MemoryStore where
  value? key := if key = .rollingCode then some (wordBytes 0xffffff3) else none

/-- Two boots with a transmission in each of two passes; the first one loses power before the flush of its second
pass. -/
def wrapBoots : List (Boot BusScript) :=
  [.full {} 0 0 [.service {} 0] (.sending {} 1000), .full {} 0 0 [.service {} 0, .service {} 1000] .idle]

/-- The first of these boots sends the last codes before the wrap, the second one starts after it. -/
theorem codes_not_reused_wrap :
    ((history wrapStore wrapBoots).map fun b => b.rows.map codeOf?) =
        [[some 0xffffffd, some 0xffffffe], [some 7, some 8]] ∧
      (history wrapStore wrapBoots).Pairwise fun earlier later =>
        ∀ row ∈ earlier.rows, ∀ row' ∈ later.rows, codeOf? row ≠ codeOf? row' := by
  refine ⟨by decide +kernel, ?_⟩
  have hreliable : wrapStore.Reliable .rollingCode := fun _ => rfl
  have hstored : readWord wrapStore .rollingCode = .ok (some 0xffffff3) :=
    MemoryStore.readWord_wordBytes hreliable rfl
  have hboots : ∀ boot ∈ wrapBoots, boot.Ordinary := by
    simp [wrapBoots, Boot.Ordinary, BootStep.isReset]
  exact (codes_not_reused hreliable hstored (by decide) hboots (by decide +kernel)).2

end DoorBridge
