import AbrekMouse.Clean
import AbrekMouse.StablePairs

/-! # Sorting a lookup table

`sort_lut_data` sorts the points of a table by their keys, in place.  The slots behind the last
point are not touched, also not the odd one that is counted by the length but belongs to no
point.
-/
namespace AbrekMouse
open ProgLib ProgLib.Fp ProgLib.PairSort

theorem rd_sortLutData_of_le {a : AccelArgs} (hcap : 2 * a.points ≤ lutRawDataCapacity) {i : ℕ}
    (hi : 2 * a.points ≤ i) : rd (sortLutData a).data i = rd a.data i := by
  have hpair : getPair (sortPairs a.points a.data) (i / 2) = getPair a.data (i / 2) :=
    getPair_sortPairs_of_le a.data hcap (by omega)
  obtain ⟨hkey, hval⟩ := Prod.mk.inj hpair
  have hparity : i = 2 * (i / 2) ∨ i = 2 * (i / 2) + 1 := by omega
  rcases hparity with heven | hodd
  · rw [heven]
    exact hkey
  · rw [hodd]
    exact hval

/-- **A table is sorted stably.**  Its points are permuted, in the order of their keys, and those
with one key in the order in which they were; nothing else is touched; and to sort it once more
changes nothing. -/
theorem sortLutData_stable {a : AccelArgs} (h0 : 0 ≤ a.length)
    (hcap : a.length ≤ lutRawDataCapacity)
    (hfinite : ∀ i < a.length.toNat, (rd a.data i).isFinite = true) :
    (pairs a.points (sortLutData a).data).Perm (pairs a.points a.data) ∧
      (pairs a.points (sortLutData a).data).Pairwise (fun p q => ¬q.1 < p.1) ∧
      (∀ k : Single, k.isFinite = true →
        (pairs a.points (sortLutData a).data).filter (Ties k ·) =
          (pairs a.points a.data).filter (Ties k ·)) ∧
      a.points = (a.length / 2).toNat ∧
      (∀ i, 2 * a.points ≤ i → rd (sortLutData a).data i = rd a.data i) ∧
      { sortLutData a with data := a.data } = a ∧
      sortLutData (sortLutData a) = sortLutData a := by
  have hpoints := points_le a
  have hroom : 2 * a.points ≤ lutRawDataCapacity := by omega
  have hkeys : ∀ p ∈ pairs a.points a.data, p.1.isFinite = true := by
    intro p hp
    obtain ⟨q, hq, rfl⟩ := List.mem_map.mp hp
    have hlt := List.mem_range.mp hq
    exact hfinite (2 * q) (by omega)
  obtain ⟨hperm, hfilter⟩ := sortPairs_stable weakOrderOn_finite hroom hkeys
  have hclean := sortLutData_clean h0 hcap hfinite
  refine ⟨hperm, sorted_iff_pairwise.mp hclean.sorted, hfilter, ?_,
    fun i hi => rd_sortLutData_of_le hroom hi, rfl, sortLutData_of_clean hclean⟩
  rw [points_eq]
  omega

/-- Three points, two of them with the key 2, and an odd slot. -/
def jumbled : AccelArgs :=
  { length := 7
    data := (Vector.replicate lutRawDataCapacity 0).setIfInBounds 0 2
      |>.setIfInBounds 1 7 |>.setIfInBounds 2 1 |>.setIfInBounds 3 8 |>.setIfInBounds 4 2
      |>.setIfInBounds 5 9 |>.setIfInBounds 6 3 }

/-- The two points keep their order, and the odd slot its place. -/
theorem sortLutData_stable_jumbled :
    (pairs 3 (sortLutData jumbled).data).filter (Ties 2 ·) = [(2, 7), (2, 9)] ∧
      rd (sortLutData jumbled).data 6 = 3 := by
  have hties : (pairs 3 jumbled.data).filter (Ties 2 ·) = [(2, 7), (2, 9)] := by decide +kernel
  have hodd : rd jumbled.data 6 = 3 := by decide +kernel
  rw [← hties, ← hodd]
  obtain ⟨-, -, hfilter, -, hrest, -⟩ :=
    sortLutData_stable (show 0 ≤ jumbled.length by decide)
      (show jumbled.length ≤ lutRawDataCapacity by decide)
      (show ∀ i < jumbled.length.toNat, (rd jumbled.data i).isFinite = true by decide +kernel)
  exact ⟨hfilter 2 (by decide +kernel), hrest 6 (by decide)⟩

end AbrekMouse
