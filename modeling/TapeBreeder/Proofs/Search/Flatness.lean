import Mathlib.Algebra.Ring.Parity
import TapeBreeder.Proofs.Population.BaseCosts
import TapeBreeder.Proofs.Population.Halving
import TapeBreeder.Proofs.Search.Populations
import TapeBreeder.Proofs.Search.Snapshots
import TapeBreeder.Proofs.Search.Winner

/-!
# Populations that stay flat

Two children are bred for each program that is kept and for each one that is invalid. Where half of
the valid programs are kept, rounded down, these are enough to fill the next population again, but
for one program if all of an odd number are valid.

* `EvolveOptions.FilledBy` — whether a population is large enough. The first one is, and so is every
  one that is drawn anew (`surely_filledBy_firstPopulation`); a step leads from one to the next
  (`State.filledBy_next`).
* `Engine.KeepsHalf` — whether a search keeps half of its valid programs in every generation. It
  does if the ratio in its settings is at least one half (`Engine.keepsHalf_of_half_le`).
* `population_flat` — the sizes of the populations of a search that keeps half.
-/

namespace TapeBreeder

/-! ## Sizes of populations -/

/-- Whether a population is as large as the settings say, or has one program less than an odd
number. -/
def EvolveOptions.FilledBy (evolve : EvolveOptions) (population : List Program) : Prop :=
  population.length = evolve.populationSize.toNat ∨
    Odd evolve.populationSize.toNat ∧ population.length + 1 = evolve.populationSize.toNat

/-- Where half of the valid programs are kept, at most one program is not made up for, and then the
number of programs is odd. -/
theorem le_two_mul_of_half_le {valid kept : Nat} (hkept : valid / 2 ≤ kept) (invalid : Nat) :
    valid + invalid ≤ 2 * (kept + invalid) ∨
      Odd (valid + invalid) ∧ valid + invalid ≤ 2 * (kept + invalid) + 1 := by
  by_cases heven : Even valid
  · have hvalid : valid % 2 = 0 := Nat.even_iff.mp heven
    left
    omega
  · have hvalid : valid % 2 = 1 := Nat.not_even_iff.mp heven
    cases invalid with
    | zero =>
      right
      refine ⟨Nat.odd_iff.mpr hvalid, ?_⟩
      omega
    | succ invalid =>
      -- Any invalid program makes up for the valid one that is lost, because it has two children.
      left
      omega

/-- What is bred from a population that is large enough is large enough. -/
theorem EvolveOptions.FilledBy.bred {evolve : EvolveOptions} {before after : List Program}
    (h : evolve.FilledBy before) {valid invalid kept : Nat}
    (hbefore : valid + invalid = before.length) (hkept : valid / 2 ≤ kept)
    (hafter : after.length = min evolve.populationSize.toNat (2 * (kept + invalid))) :
    evolve.FilledBy after := by
  have hchildren := le_two_mul_of_half_le hkept invalid
  rw [hbefore] at hchildren
  have hbred : evolve.populationSize.toNat ≤ 2 * (kept + invalid) ∨
      Odd evolve.populationSize.toNat ∧
        evolve.populationSize.toNat ≤ 2 * (kept + invalid) + 1 := by
    rcases h with hfull | ⟨hodd, hshort⟩
    · rwa [hfull] at hchildren
    · rcases hchildren with hall | ⟨hlost, -⟩
      · right
        refine ⟨hodd, ?_⟩
        omega
      · -- One less than an odd number is not odd, so that no program is lost from there.
        have hparity := Nat.odd_iff.mp hodd
        have hparity' := Nat.odd_iff.mp hlost
        omega
  -- The children are cut down to the size in the settings, if there are more.
  unfold FilledBy
  rcases hbred with hall | ⟨hodd, hone⟩
  · left
    omega
  · by_cases hall : evolve.populationSize.toNat ≤ 2 * (kept + invalid)
    · left
      omega
    · right
      refine ⟨hodd, ?_⟩
      omega

variable {σ : Type} [RandomSource σ]

theorem surely_filledBy_firstPopulation (e : Engine σ) :
    Surely e.firstPopulation e.config.evolve.FilledBy := by
  refine (surely_repeatedly (surely_any _) _).mono ?_
  rintro population ⟨hlength, -⟩
  exact .inl hlength

/-! ## Populations of a search -/

/-- Whether a search keeps half of its valid programs, rounded down, in every generation that it
goes on from. -/
def Engine.KeepsHalf (clock : Clock) (monitor : Monitor) (e : Engine σ) : Prop :=
  ∀ s t, State.Reachable clock monitor e s → s.step clock monitor = .next t →
    (s.evaluate clock).scored.length / 2 ≤
      (cull (s.evaluate clock).scored e.config.evolve.cullRatio).length

namespace State

variable {clock : Clock} {monitor : Monitor} {e : Engine σ} {s t : State σ}

/-- A step from a population that is large enough leads to one that is, if half is kept. -/
theorem filledBy_next (hs : s.engine.config.evolve.FilledBy s.population)
    (hstep : s.step clock monitor = .next t)
    (hkept : (s.evaluate clock).scored.length / 2 ≤
      (cull (s.evaluate clock).scored s.engine.config.evolve.cullRatio).length) :
    s.engine.config.evolve.FilledBy t.population := by
  by_cases hscored : (s.evaluate clock).scored = []
  · have hdrawn := surely_filledBy_firstPopulation s.engine s.engine.source
    rw [← drawn_anew hstep hscored] at hdrawn
    exact hdrawn
  · have hlength := surely_length_nextGeneration s.engine.config.evolve s.engine.config.mutation
      (s.evaluate clock) s.engine.source
    rw [← drawn_bred hstep hscored] at hlength
    exact hs.bred (length_scored_add_invalid clock s) hkept hlength

/-- Along a search that keeps half of its valid programs, every population is large enough. Losing
one program is the most that can happen, and it happens once. -/
theorem Reachable.filledBy (hkeeps : e.KeepsHalf clock monitor)
    (hs : Reachable clock monitor e s) : e.config.evolve.FilledBy s.population := by
  induction hs with
  | start => exact surely_filledBy_firstPopulation e e.source
  | @next s t hs hstep ih =>
    -- The settings of a reachable state are those that the search began with.
    have hconfig : s.engine.config = e.config := hs.carried.1
    have hkept := hkeeps s t hs hstep
    rw [← hconfig] at ih hkept ⊢
    exact filledBy_next ih hstep hkept

end State

/-- With a ratio of at least one half a search keeps half of its valid programs, as long as doubles
can count them. -/
theorem Engine.keepsHalf_of_half_le {e : Engine σ} (hvalid : e.config.validate = .ok ())
    (hsize : e.config.evolve.populationSize.toNat < 2 ^ 53)
    (hratio : .ofRatio false 1 2 ≤ e.config.evolve.cullRatio) (clock : Clock) (monitor : Monitor) :
    e.KeepsHalf clock monitor := by
  intro s t hs _
  have hpopulation := (hs.admits (RunConfig.two_le_populationSize hvalid)).length_le
  have hcounts := State.length_scored_add_invalid clock s
  apply half_le_length_cull _ hratio
  omega

/-- The sizes of the populations of a search that keeps half of its valid programs, rounded down,
in every generation, however many of them are valid. If the settings ask for an even number of
programs, then all populations have that many, and if they ask for an odd number, then they have
that many or one less. The snapshots of a run show nothing else. -/
theorem population_flat {clock : Clock} {monitor : Monitor} {e : Engine σ}
    (hkeeps : e.KeepsHalf clock monitor) :
    (∀ s, State.Reachable clock monitor e s →
      (Even e.config.evolve.populationSize.toNat →
        s.population.length = e.config.evolve.populationSize.toNat) ∧
      (Odd e.config.evolve.populationSize.toNat →
        s.population.length = e.config.evolve.populationSize.toNat ∨
          s.population.length = e.config.evolve.populationSize.toNat - 1)) ∧
    (∀ rounds r, e.run clock monitor rounds = some r → ∀ p ∈ r.snapshots, p.IsScored →
      (Even e.config.evolve.populationSize.toNat →
        p.populationSize = e.config.evolve.populationSize.toNat) ∧
      (Odd e.config.evolve.populationSize.toNat →
        p.populationSize = e.config.evolve.populationSize.toNat ∨
          p.populationSize = e.config.evolve.populationSize.toNat - 1)) := by
  have hsizes : ∀ s, State.Reachable clock monitor e s →
      (Even e.config.evolve.populationSize.toNat →
        s.population.length = e.config.evolve.populationSize.toNat) ∧
      (Odd e.config.evolve.populationSize.toNat →
        s.population.length = e.config.evolve.populationSize.toNat ∨
          s.population.length = e.config.evolve.populationSize.toNat - 1) := by
    intro s hs
    rcases hs.filledBy hkeeps with hfull | ⟨hodd, hshort⟩
    · exact ⟨fun _ => hfull, fun _ => .inl hfull⟩
    · constructor
      · intro heven
        exact absurd hodd (Nat.not_odd_iff_even.mpr heven)
      · intro _
        right
        omega
  refine ⟨hsizes, ?_⟩
  intro rounds r hr p hp hscored
  rcases Engine.exists_visits_of_run hr with ⟨t, ht, hsnapshots⟩
  rw [hsnapshots, List.mem_reverse] at hp
  rcases ht.exists_tellsOf hp hscored with ⟨s, hs, htells⟩
  -- A snapshot shows the size of a population that the search has been in.
  rw [htells.populationSize]
  exact hsizes s hs

/-- The usual ratio keeps half. A search with three programs goes on with three of them or with two,
and a run with two programs scores nothing but populations of two. -/
theorem population_flat_trio_and_echo :
    (Engine.trio.KeepsHalf .steady (.passive none) ∧
      ∀ s, State.Reachable .steady (.passive none) Engine.trio s →
        s.population.length = 3 ∨ s.population.length = 2) ∧
    ((FreeDraw.engine .echo).KeepsHalf .steady (.passive none) ∧
      ∃ r, (FreeDraw.engine .echo).run .steady (.passive none) 1 = some r ∧
        ∀ p ∈ r.snapshots, p.IsScored → p.populationSize = 2) := by
  constructor
  · have hkeeps : Engine.trio.KeepsHalf .steady (.passive none) := by
      apply Engine.keepsHalf_of_half_le <;> decide +kernel
    have hodd : Odd Engine.trio.config.evolve.populationSize.toNat := by decide
    refine ⟨hkeeps, ?_⟩
    intro s hs
    exact ((population_flat hkeeps).1 s hs).2 hodd
  · have hkeeps : (FreeDraw.engine .echo).KeepsHalf .steady (.passive none) := by
      apply Engine.keepsHalf_of_half_le <;> decide +kernel
    have heven : Even (FreeDraw.engine .echo).config.evolve.populationSize.toNat := by decide
    rcases FreeDraw.exists_run .echo with ⟨r, report, hrun, -⟩
    refine ⟨hkeeps, r, hrun, ?_⟩
    intro p hp hscored
    exact ((population_flat hkeeps).2 1 r hrun p hp hscored).1 heven

end TapeBreeder
