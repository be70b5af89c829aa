import TermobKernel.Library.Memory

/-!
# Deterministic walks

A loop that carries a cursor: it goes on while the cursor satisfies `enter`, stops after a cursor
that does not satisfy `go`, and otherwise moves on to `next`. `Arrives` says which rounds there are.
A loop over the 32-bit words never ends exactly when it comes back to a cursor
(`stops_iff_no_revisit`). A loop that adds the same stride to its cursor gets behind any bound below
the last word with the right remainder (`exceeds_iff`).
-/

namespace TermobKernel.Walk

section
variable {α : Type*} (enter go : α → Prop) (next : α → α)
variable {x : α}
variable {m n : Nat}

/-- The loop that starts at `x` has a round `n`, counted from zero. -/
def Arrives (x : α) (n : Nat) : Prop := (∀ m ≤ n, enter (next^[m] x)) ∧ ∀ m < n, go (next^[m] x)

variable {enter go next}

theorem arrives_zero : Arrives enter go next x 0 ↔ enter x := by
  constructor
  · intro h
    exact h.1 0 le_rfl
  · intro h
    refine ⟨?_, ?_⟩
    · intro m hm
      obtain rfl := Nat.le_zero.mp hm
      exact h
    · intro m hm
      exact absurd hm (Nat.not_lt_zero m)

theorem arrives_succ {n : Nat} :
    Arrives enter go next x (n + 1) ↔ enter x ∧ go x ∧ Arrives enter go next (next x) n := by
  constructor
  · rintro ⟨henter, hgo⟩
    refine ⟨henter 0 (Nat.zero_le _), hgo 0 (Nat.succ_pos n), ?_, ?_⟩
    · intro m hm
      exact henter (m + 1) (by omega)
    · intro m hm
      exact hgo (m + 1) (by omega)
  · rintro ⟨henter, hgo, harrive, hmore⟩
    refine ⟨?_, ?_⟩
    · rintro (_ | m) hm
      · exact henter
      · exact harrive m (by omega)
    · rintro (_ | m) hm
      · exact hgo
      · exact hmore m (by omega)

theorem Arrives.mono (h : Arrives enter go next x n) (hle : m ≤ n) :
    Arrives enter go next x m :=
  ⟨fun k hk => h.1 k (by omega), fun k hk => h.2 k (by omega)⟩

theorem forall_arrives_succ {rounds : Nat} {Q : α → Prop} :
    (∀ n < rounds + 1, Arrives enter go next x n → Q (next^[n] x)) ↔
      (enter x → Q x ∧
        (go x → ∀ n < rounds, Arrives enter go next (next x) n → Q (next^[n] (next x)))) := by
  constructor
  · intro h henter
    refine ⟨h 0 (Nat.succ_pos rounds) (arrives_zero.mpr henter), ?_⟩
    intro hgo n hn harrive
    exact h (n + 1) (by omega) (arrives_succ.mpr ⟨henter, hgo, harrive⟩)
  · rintro h (_ | n) hn harrive
    · exact (h (arrives_zero.mp harrive)).1
    · obtain ⟨henter, hgo, hrest⟩ := arrives_succ.mp harrive
      exact (h henter).2 hgo n (by omega) hrest

/-- Once a value comes back, only the values before its second visit occur: what lies between the two visits
can be cut out of any longer sequence. -/
theorem iterate_revisit (hlt : m < n) (heq : next^[m] x = next^[n] x) (j : Nat) :
    ∃ i < n, i ≤ j ∧ next^[i] x = next^[j] x := by
  induction j using Nat.strongRecOn with
  | ind j ih =>
    by_cases hj : j < n
    · exact ⟨j, hj, le_rfl, rfl⟩
    have hcut : next^[j - n + m] x = next^[j] x := by
      rw [Function.iterate_add_apply, heq, ← Function.iterate_add_apply]
      congr 2
      omega
    obtain ⟨i, hi, hij, hieq⟩ := ih (j - n + m) (by omega)
    exact ⟨i, hi, by omega, hieq.trans hcut⟩

/-- The loop stops at this cursor, before or after its round. -/
def Stops (enter go : α → Prop) (x : α) : Prop := ¬enter x ∨ ¬go x

theorem Arrives.not_stops (h : Arrives enter go next x n) (hlt : m < n) :
    ¬Stops enter go (next^[m] x) := by
  rintro (hno | hno)
  · exact hno (h.1 m (by omega))
  · exact hno (h.2 m hlt)

end

/-! ### Walks over the words -/

theorem exists_revisit (f : UInt32 → UInt32) (x : UInt32) :
    ∃ m n, m < n ∧ n ≤ UInt32.size ∧ f^[m] x = f^[n] x := by
  obtain ⟨a, ha, b, hb, hne, heq⟩ : ∃ a ∈ Finset.range (UInt32.size + 1),
      ∃ b ∈ Finset.range (UInt32.size + 1), a ≠ b ∧ (f^[a] x).toNat = (f^[b] x).toNat := by
    apply Finset.exists_ne_map_eq_of_card_lt_of_maps_to (t := Finset.range UInt32.size)
    · rw [Finset.card_range, Finset.card_range]
      exact Nat.lt_succ_self _
    · intro k _
      rw [Finset.mem_coe, Finset.mem_range]
      exact UInt32.toNat_lt _
  rw [Finset.mem_range] at ha hb
  have hword : f^[a] x = f^[b] x := UInt32.toNat_inj.mp heq
  rcases Nat.lt_or_gt_of_ne hne with hlt | hlt
  · exact ⟨a, b, hlt, by omega, hword⟩
  · exact ⟨b, a, hlt, by omega, hword.symm⟩

theorem iterate_early (f : UInt32 → UInt32) (x : UInt32) (n : Nat) :
    ∃ m < UInt32.size, m ≤ n ∧ f^[m] x = f^[n] x := by
  obtain ⟨a, b, hlt, hb, heq⟩ := exists_revisit f x
  obtain ⟨m, hm, hmn, hmeq⟩ := iterate_revisit hlt heq n
  exact ⟨m, by omega, hmn, hmeq⟩

/-- The loop ends, and then within `2 ^ 32` rounds, exactly when it looks at no cursor twice. -/
theorem stops_iff_no_revisit {enter go : UInt32 → Prop} {next : UInt32 → UInt32} {x : UInt32} :
    (∃ k < UInt32.size, Stops enter go (next^[k] x)) ↔
      ∀ m n, m < n → Arrives enter go next x n → next^[m] x ≠ next^[n] x := by
  constructor
  · rintro ⟨k, _, hstop⟩ m n hlt harrive heq
    obtain ⟨i, hi, _, hsame⟩ := iterate_revisit hlt heq k
    rw [← hsame] at hstop
    exact harrive.not_stops hi hstop
  · intro hfresh
    by_contra hnever
    obtain ⟨m, n, hlt, hn, heq⟩ := exists_revisit next x
    have hgoes : ∀ k, ¬Stops enter go (next^[k] x) := by
      intro k hstop
      obtain ⟨i, hi, _, hsame⟩ := iterate_early next x k
      rw [← hsame] at hstop
      exact hnever ⟨i, hi, hstop⟩
    refine hfresh m n hlt ⟨?_, ?_⟩ heq
    · intro i _
      by_contra hno
      exact hgoes i (Or.inl hno)
    · intro i _
      by_contra hno
      exact hgoes i (Or.inr hno)

/-! ### Walks with a fixed stride -/

section
variable {c e n : Nat}

/-- Adding `e` again and again modulo `n` leads to every number below `n` that has the remainder of
the start modulo the greatest common divisor. -/
theorem exists_add_mul_mod {w : Nat} (hw : w < n) (hrem : w % Nat.gcd e n = c % Nat.gcd e n) :
    ∃ k, 0 < k ∧ (c + k * e) % n = w := by
  obtain ⟨t, ht⟩ : (Nat.gcd e n : ℤ) ∣ w - c := (Nat.modEq_iff_dvd).mp hrem.symm
  have hbezout := Nat.gcd_eq_gcd_ab e n
  have hn : (0 : ℤ) < n := by omega
  have hmod := Int.emod_nonneg (Nat.gcdA e n * t) (ne_of_gt hn)
  have hdiv := Int.emod_add_mul_ediv (Nat.gcdA e n * t) n
  refine ⟨(Nat.gcdA e n * t % n + n).toNat, by omega, ?_⟩
  zify
  rw [Int.toNat_of_nonneg (by omega)]
  have hsum : (c : ℤ) + (Nat.gcdA e n * t % n + n) * e =
      w + n * (e - Nat.gcdB e n * t - e * (Nat.gcdA e n * t / n)) := by
    have hword : (w : ℤ) = c + (e * Nat.gcdA e n + n * Nat.gcdB e n) * t := by
      rw [← hbezout]
      linarith
    have hrest : Nat.gcdA e n * t % n = Nat.gcdA e n * t - n * (Nat.gcdA e n * t / n) := by linarith
    rw [hword, hrest]
    ring
  rw [hsum, Int.add_mul_emod_self_left]
  exact Int.emod_eq_of_lt (by omega) (by omega)

theorem exceeds_iff (hn : 0 < n) {bound : Nat} :
    (∃ k, 0 < k ∧ bound < (c + k * e) % n) ↔ bound < n - Nat.gcd e n + c % Nat.gcd e n := by
  have hg : 0 < Nat.gcd e n := Nat.gcd_pos_of_pos_right e hn
  have hgn := Nat.gcd_dvd_right e n
  have hle := Nat.le_of_dvd hn hgn
  have hlt := Nat.mod_lt c hg
  constructor
  · rintro ⟨k, _, hk⟩
    -- the number has the remainder of the start, and the last such number below `n` is the bound
    have hrem : (c + k * e) % n % Nat.gcd e n = c % Nat.gcd e n := by
      obtain ⟨q, hq⟩ := (Nat.gcd_dvd_left e n).mul_left k
      rw [Nat.mod_mod_of_dvd _ hgn, hq, Nat.add_mul_mod_self_left]
    have hbelow := Nat.div_lt_div_of_lt_of_dvd hgn (Nat.mod_lt (c + k * e) hn)
    have hsplit := Nat.div_add_mod ((c + k * e) % n) (Nat.gcd e n)
    have hcell : Nat.gcd e n * ((c + k * e) % n / Nat.gcd e n) ≤ n - Nat.gcd e n := by
      calc Nat.gcd e n * ((c + k * e) % n / Nat.gcd e n)
          ≤ Nat.gcd e n * (n / Nat.gcd e n - 1) := Nat.mul_le_mul_left _ (by omega)
        _ = n - Nat.gcd e n := by rw [Nat.mul_sub, Nat.mul_div_cancel' hgn, Nat.mul_one]
    omega
  · intro hbound
    have hlast : (n - Nat.gcd e n + c % Nat.gcd e n) % Nat.gcd e n = c % Nat.gcd e n := by
      obtain ⟨q, hq⟩ := Nat.dvd_sub hgn (dvd_refl (Nat.gcd e n))
      rw [hq, Nat.mul_add_mod, Nat.mod_mod]
    obtain ⟨k, hk, hkeq⟩ := exists_add_mul_mod (c := c) (e := e) (by omega) hlast
    exact ⟨k, hk, by omega⟩

end

end TermobKernel.Walk
