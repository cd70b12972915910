import DoorBridge.Proofs.History

/-!
# Proofs.Boot — the course of one boot

A boot starts from a code `c` and takes one step for every packet that uses up a code.  `OnCourse c p b` says how the
counter, the save point and the store hang together when the last save happened after `p` steps: the counter is at
most `bootSteps` ahead of the save point, and every row that went to the bus carries a code short of that.  So the
next boot, which starts `bootSteps` after the save point, starts past all of them.

* `OnCourse.transmit`, `OnCourse.flush`, ...: what each step does to `p`.
* `onCourse_run`: every boot is on course when it loses power.
* `chain_history`: the boots of a history are on course one after the other (`Chain`).
-/

namespace DoorBridge

/-- Whether a flush had no advanced counter to save: the counter had not come far enough, and if a restart asked for a
save there was nothing to save yet. -/
def Flushed.Idle (c : Nat) (f : Flushed) : Prop := f.codesUsed < bootSteps c ∧ (f.forced = true → f.codesUsed = 0)

namespace Bridge

/-- A boot that started from `c` and saved its counter last after `p` steps. -/
structure OnCourse (c p : Nat) (b : Bridge) : Prop where
  security : b.engine.settings.security = .plus2
  noReset : b.engine.pending.reset = false
  first : b.firstCounter = c
  rolling : b.engine.identity.rolling = codeAfter c b.codesUsed
  lastSaved : b.engine.identity.lastSaved = codeAfter c p
  holds : HoldsCounter b.store (some (.ofNat (codeAfter c p)))
  saved_le : p ≤ b.codesUsed
  within : b.codesUsed ≤ p + bootSteps (codeAfter c p)
  rows : ∀ row ∈ b.rows, ∃ m, m ≤ b.codesUsed ∧ m < p + bootSteps (codeAfter c p) ∧
    codeOf? row = some (codeAfter c m)
  carried : ∀ m < b.codesUsed, ∃ row ∈ b.rows, codeOf? row = some (codeAfter c m)
  flushes : p = 0 ↔ ∀ f ∈ b.flushes, f.Idle c

/-- Between two steps the counter stays short of where the next boot would start. -/
def AtRest (c p : Nat) (b : Bridge) : Prop := OnCourse c p b ∧ b.codesUsed < p + bootSteps (codeAfter c p)

variable {c p : Nat} {b : Bridge}

theorem OnCourse.withEngine {e : Engine} (h : OnCourse c p b) (hcore : e.core = b.engine.core) :
    OnCourse c p (b.withEngine e) := by
  obtain ⟨hidentity, hsecurity, hreset⟩ := Engine.core_eq_iff.mp hcore
  exact { h with
    security := hsecurity.trans h.security
    noReset := hreset.trans h.noReset
    rolling := (congrArg Identity.rolling hidentity).trans h.rolling
    lastSaved := (congrArg Identity.lastSaved hidentity).trans h.lastSaved }

theorem AtRest.withEngine {e : Engine} (h : AtRest c p b) (hcore : e.core = b.engine.core) :
    AtRest c p (b.withEngine e) := ⟨h.1.withEngine hcore, h.2⟩

/-! ## Steps -/

/-- A transmission takes the counter at most one step further, and its row carries the code from before. -/
theorem AtRest.transmit {β : Type} [Bus β] (h : AtRest c p b) (bus : β) (now : Nat) :
    OnCourse c p (b.transmit bus now) := by
  obtain ⟨h, hrest⟩ := h
  have hcore := transmit_core h.security bus now
  obtain ⟨new, hrows, hnew, hused⟩ := transmit_rows h.security bus now
  rw [h.rolling] at hnew
  -- the engine after the transmission, whether or not it used up a code
  have hstep : (b.transmit bus now).engine.settings.security = .plus2 ∧
      (b.transmit bus now).engine.pending.reset = false ∧
      (b.transmit bus now).engine.identity.rolling = codeAfter c (b.transmit bus now).codesUsed ∧
      (b.transmit bus now).engine.identity.lastSaved = codeAfter c p := by
    obtain ⟨hn, hcore⟩ | ⟨hn, hcore⟩ := hcore
    all_goals
      obtain ⟨hidentity, hsecurity, hreset⟩ := Engine.core_eq_iff.mp hcore
      refine ⟨hsecurity.trans h.security, hreset.trans h.noReset, ?_,
        (congrArg Identity.lastSaved hidentity).trans h.lastSaved⟩
      rw [hn, hidentity]
    · exact h.rolling
    · exact congrArg (advance · 1) h.rolling
  obtain ⟨hsecurity, hreset, hrolling, hsaved⟩ := hstep
  have hn : b.codesUsed ≤ (b.transmit bus now).codesUsed ∧ (b.transmit bus now).codesUsed ≤ b.codesUsed + 1 := by
    omega
  refine ⟨hsecurity, hreset, h.first, hrolling, hsaved, h.holds, h.saved_le.trans hn.1, by omega, ?_, ?_, h.flushes⟩
  · intro row hrow
    rw [hrows] at hrow
    rcases List.mem_append.mp hrow with hold | hadded
    · obtain ⟨m, hm, hlt, hcode⟩ := h.rows row hold
      exact ⟨m, hm.trans hn.1, hlt, hcode⟩
    · exact ⟨b.codesUsed, hn.1, hrest, hnew row hadded⟩
  · intro m hm
    rw [hrows]
    by_cases hold : m < b.codesUsed
    · obtain ⟨row, hrow, hcode⟩ := h.carried m hold
      exact ⟨row, List.mem_append_left _ hrow, hcode⟩
    · have hlast : m = b.codesUsed := by omega
      have hsome : new ≠ [] := hused.resolve_left (by omega)
      obtain ⟨row, hrow⟩ := List.exists_mem_of_ne_nil new hsome
      exact ⟨row, List.mem_append_right _ hrow, hlast ▸ hnew row hrow⟩

theorem OnCourse.recordMotion (h : OnCourse c p b) : OnCourse c p b.recordMotion := by
  obtain ⟨hidentity, hsecurity, hreset⟩ := Engine.core_eq_iff.mp (Engine.core_flushMotion b.engine b.store)
  exact { h with
    security := hsecurity.trans h.security
    noReset := hreset.trans h.noReset
    rolling := (congrArg Identity.rolling hidentity).trans h.rolling
    lastSaved := (congrArg Identity.lastSaved hidentity).trans h.lastSaved
    holds := Engine.holds_flushMotion h.holds b.engine }

/-- Whether a flush moves the save point. -/
theorem OnCourse.needsSave_iff (hc : c < counterBound) (h : OnCourse c p b) :
    b.engine.identity.needsSave = true ↔ b.codesUsed = p + bootSteps (codeAfter c p) := by
  obtain ⟨k, hk⟩ := Nat.exists_eq_add_of_le h.saved_le
  have hrolling : b.engine.identity.rolling = codeAfter (codeAfter c p) k := by
    rw [h.rolling, codeAfter_add, ← hk]
  have hwithin := h.within
  rw [DoorBridge.needsSave_iff (codeAfter_lt hc p) h.lastSaved hrolling (by omega)]
  omega

/-- A flush that saves moves the save point up to the counter. -/
theorem OnCourse.flush_saving (hc : c < counterBound) (h : OnCourse c p b) (hdue : b.engine.saveIsDue = true) :
    AtRest c b.codesUsed b.flush := by
  obtain ⟨hcore, hholds⟩ := Engine.flush_spec h.security h.noReset h.holds
  rw [if_pos hdue] at hcore hholds
  obtain ⟨hidentity, hsecurity, hreset⟩ := Engine.core_eq_iff.mp hcore
  have hahead := (bootSteps_le (codeAfter c b.codesUsed)).1
  refine ⟨{ h with
    security := hsecurity.trans h.security
    noReset := hreset.trans h.noReset
    rolling := (congrArg Identity.rolling hidentity).trans h.rolling
    lastSaved := (congrArg Identity.lastSaved hidentity).trans h.rolling
    holds := h.rolling ▸ hholds
    saved_le := Nat.le_refl _
    within := Nat.le_add_right _ _
    rows := ?_
    flushes := ?_ }, ?_⟩
  · intro row hrow
    obtain ⟨m, hm, -, hcode⟩ := h.rows row hrow
    exact ⟨m, hm, by omega, hcode⟩
  · constructor
    · intro hzero f hf
      have hp : p = 0 := Nat.le_zero.mp (hzero ▸ h.saved_le)
      rcases List.mem_append.mp hf with hf | hf
      · exact h.flushes.mp hp f hf
      · rw [List.mem_singleton.mp hf]
        have hsteps := (bootSteps_le c).1
        exact ⟨by dsimp only; omega, fun _ => hzero⟩
    · intro hidle
      have hp : p = 0 := h.flushes.mpr fun f hf => hidle f (List.mem_append_left _ hf)
      obtain ⟨hshort, hforced⟩ := hidle _ (List.mem_append_right _ (List.mem_singleton.mpr rfl))
      rcases Bool.or_eq_true_iff.mp hdue with hsave | hneeds
      · exact hforced hsave
      · have hused := (h.needsSave_iff hc).mp hneeds
        rw [hp, codeAfter] at hused
        dsimp only at hshort
        omega
  · show b.codesUsed < b.codesUsed + bootSteps (codeAfter c b.codesUsed)
    omega

/-- A flush that does not save leaves the counter short of a save. -/
theorem OnCourse.flush_idle (hc : c < counterBound) (h : OnCourse c p b) (hdue : b.engine.saveIsDue = false) :
    AtRest c p b.flush := by
  obtain ⟨hcore, hholds⟩ := Engine.flush_spec h.security h.noReset h.holds
  rw [if_neg (ne_true_of_eq_false hdue)] at hcore hholds
  obtain ⟨hidentity, hsecurity, hreset⟩ := Engine.core_eq_iff.mp hcore
  obtain ⟨hsave, hneeds⟩ := Bool.or_eq_false_iff.mp hdue
  have hshort : b.codesUsed < p + bootSteps (codeAfter c p) :=
    lt_of_le_of_ne h.within fun hused => ne_true_of_eq_false hneeds ((h.needsSave_iff hc).mpr hused)
  refine ⟨{ h with
    security := hsecurity.trans h.security
    noReset := hreset.trans h.noReset
    rolling := (congrArg Identity.rolling hidentity).trans h.rolling
    lastSaved := (congrArg Identity.lastSaved hidentity).trans h.lastSaved
    holds := hholds
    flushes := ?_ }, hshort⟩
  constructor
  · intro hp f hf
    rcases List.mem_append.mp hf with hf | hf
    · exact h.flushes.mp hp f hf
    · rw [List.mem_singleton.mp hf]
      rw [hp, codeAfter] at hshort
      refine ⟨by dsimp only; omega, fun hforced => ?_⟩
      exact absurd hforced (ne_true_of_eq_false hsave)
  · exact fun hidle => h.flushes.mpr fun f hf => hidle f (List.mem_append_left _ hf)

theorem OnCourse.flush (hc : c < counterBound) (h : OnCourse c p b) : ∃ p', AtRest c p' b.flush := by
  cases hdue : b.engine.saveIsDue with
  | true => exact ⟨_, h.flush_saving hc hdue⟩
  | false => exact ⟨_, h.flush_idle hc hdue⟩

/-! ## Boots -/

section Runs

variable {β : Type} [Bus β]

/-- Every step but a reset keeps a boot on course. -/
theorem AtRest.take (hc : c < counterBound) (h : AtRest c p b) {step : BootStep β} (hstep : step.isReset = false) :
    ∃ p', AtRest c p' (b.take step) := by
  rcases b.take_cases hstep with rfl | ⟨bus, now, rfl⟩ | ⟨-, e, hcore, htake⟩
  · exact h.1.flush hc
  · exact (h.transmit bus now).flush hc
  · exact ⟨p, htake ▸ h.withEngine hcore⟩

theorem AtRest.foldl_take (hc : c < counterBound) (steps : List (BootStep β)) (h : AtRest c p b)
    (hsteps : ∀ step ∈ steps, step.isReset = false) : ∃ p', AtRest c p' (steps.foldl Bridge.take b) := by
  induction steps generalizing p b with
  | nil => exact ⟨p, h⟩
  | cons step steps ih =>
    obtain ⟨p', h'⟩ := h.take hc (hsteps step List.mem_cons_self)
    exact ih h' fun s hs => hsteps s (List.mem_cons_of_mem _ hs)

theorem AtRest.cutOff (h : AtRest c p b) (cut : Cut β) : OnCourse c p (b.cutOff cut) := by
  cases cut with
  | idle => exact h.1
  | sending bus now => exact h.transmit bus now
  | recording bus now => exact (h.transmit bus now).recordMotion
  | flushing => exact h.1.recordMotion

end Runs

variable {s : MemoryStore} {stored : Option UInt32} {settings : Settings}

theorem atRest_start (h : HoldsCounter s stored) (hplus2 : settings.security = .plus2) (entropy : UInt32)
    (now : Nat) : AtRest (Identity.bootCounter stored) 0 (Bridge.start settings s entropy now) := by
  obtain ⟨id, hcore, hholds⟩ := Engine.start_spec hplus2 h entropy now
  obtain ⟨hidentity, hsecurity, hreset⟩ := Engine.core_eq_iff.mp hcore
  have hsteps := (bootSteps_le (Identity.bootCounter stored)).1
  refine ⟨{
    security := hsecurity
    noReset := hreset
    first := congrArg Identity.rolling hidentity
    rolling := congrArg Identity.rolling hidentity
    lastSaved := congrArg Identity.lastSaved hidentity
    holds := hholds
    saved_le := Nat.le_refl 0
    within := Nat.zero_le _
    rows := fun row hrow => absurd hrow List.not_mem_nil
    carried := fun m hm => absurd hm (Nat.not_lt_zero m)
    flushes := ⟨fun _ f hf => absurd hf List.not_mem_nil, fun _ => rfl⟩ }, ?_⟩
  show 0 < 0 + bootSteps (Identity.bootCounter stored)
  omega

/-- **Every boot is on course when it loses power**, from the counter it found on. -/
theorem onCourse_run {β : Type} [Bus β] (h : HoldsCounter s stored) (hplus2 : settings.security = .plus2)
    (entropy : UInt32) (now : Nat) {steps : List (BootStep β)} (hsteps : ∀ step ∈ steps, step.isReset = false)
    (cut : Cut β) :
    ∃ p, OnCourse (Identity.bootCounter stored) p ((Bridge.start settings s entropy now).run steps cut) := by
  obtain ⟨p, hrest⟩ := (atRest_start h hplus2 entropy now).foldl_take (bootCounter_lt stored) steps hsteps
  exact ⟨p, hrest.cutOff cut⟩

end Bridge

/-! ## Histories -/

/-- Boots that are on course, each from what the one before it left in the store. -/
inductive Chain : Option UInt32 → List Bridge → Option UInt32 → Prop where
  | nil (stored : Option UInt32) : Chain stored [] stored
  | cons {stored last : Option UInt32} {p : Nat} {b : Bridge} {rest : List Bridge}
      (course : b.OnCourse (Identity.bootCounter stored) p)
      (next : Chain (some (.ofNat (codeAfter (Identity.bootCounter stored) p))) rest last) :
      Chain stored (b :: rest) last

/-- **Every history is a chain** from what it found in the store to what it leaves there. -/
theorem chain_history {β : Type} [Bus β] (boots : List (Boot β)) {store : MemoryStore} {stored : Option UInt32}
    (hholds : HoldsCounter store stored) (hboots : ∀ boot ∈ boots, boot.Ordinary) :
    ∃ last, HoldsCounter (storeAfter store boots) last ∧ Chain stored (history store boots) last := by
  induction boots generalizing store stored with
  | nil => exact ⟨stored, hholds, .nil stored⟩
  | cons boot boots ih =>
    have hrest : ∀ boot ∈ boots, boot.Ordinary := fun b hb => hboots b (List.mem_cons_of_mem _ hb)
    cases boot with
    | failed entropy => exact ih (Identity.holds_establishId hholds entropy) hrest
    | full settings entropy now steps cut =>
      obtain ⟨hplus2, hsteps⟩ := hboots _ List.mem_cons_self
      obtain ⟨p, hcourse⟩ := Bridge.onCourse_run hholds hplus2 entropy now hsteps cut
      obtain ⟨last, hlast, hchain⟩ := ih hcourse.holds hrest
      exact ⟨last, hlast, .cons hcourse hchain⟩

end DoorBridge
