import Geotrack.Ident.Uuid

/-!
# The text of an identifier

Every identifier is written with 36 characters, and no two alike.
-/

namespace Geotrack

namespace Uuid

theorem hexDigits_length (count n : Nat) : (hexDigits count n).length = count := by
  induction count generalizing n with
  | zero => rfl
  | succ count ih => rw [hexDigits, List.length_append, ih, List.length_singleton]

theorem digitChar_inj : ∀ m < 16, ∀ n < 16, Nat.digitChar m = Nat.digitChar n → m = n := by
  decide

/-- Numbers of so many digits are told apart by them. -/
theorem hexDigits_inj {count m n : Nat} (hm : m < twoTo (4 * count)) (hn : n < twoTo (4 * count))
    (h : hexDigits count m = hexDigits count n) : m = n := by
  induction count generalizing m n with
  | zero =>
    have hone : twoTo (4 * 0) = 1 := rfl
    omega
  | succ count ih =>
    have hdigit : twoTo (4 * (count + 1)) = twoTo (4 * count) * 16 := by
      rw [Nat.mul_succ, twoTo_succ, twoTo_succ, twoTo_succ, twoTo_succ]
      omega
    obtain ⟨hinit, hlast⟩ := List.append_inj' h rfl
    have hdiv : m / 16 = n / 16 := ih (by omega) (by omega) hinit
    have hmod : m % 16 = n % 16 :=
      digitChar_inj _ (by omega) _ (by omega) (List.singleton_inj.mp hlast)
    omega

/-- The grouped writing of digits. -/
def grouped (ds : List Char) : List Char :=
  ds.take 8 ++ '-' :: ((ds.drop 8).take 4 ++ '-' :: ((ds.drop 12).take 4 ++ '-' ::
    ((ds.drop 16).take 4 ++ '-' :: (ds.drop 20).take 12)))

theorem toText_toList (u : Uuid) : u.toText.toList = grouped (hexDigits 32 u.bits) := by
  simp [toText, grouped]

theorem grouped_length {ds : List Char} (h : ds.length = 32) : (grouped ds).length = 36 := by
  simp [grouped, h]

/-- Groups keep all digits. -/
theorem grouped_inj {ds es : List Char} (hds : ds.length = 32) (hes : es.length = 32)
    (h : grouped ds = grouped es) : ds = es := by
  have joined {ds : List Char} (h : ds.length = 32) :
      ds.take 8 ++ ((ds.drop 8).take 4 ++ ((ds.drop 12).take 4 ++
        ((ds.drop 16).take 4 ++ (ds.drop 20).take 12))) = ds := by
    have last : (ds.drop 20).take 12 = ds.drop 20 := List.take_of_length_le (by simp [h])
    have cut (n m : Nat) : (ds.drop n).take m ++ ds.drop (n + m) = ds.drop n := by
      rw [← List.drop_drop, List.take_append_drop]
    rw [last, cut 16 4, cut 12 4, cut 8 4, List.take_append_drop]
  obtain ⟨h₁, h⟩ := List.append_inj h (by simp [hds, hes])
  obtain ⟨h₂, h⟩ := List.append_inj (List.tail_eq_of_cons_eq h) (by simp [hds, hes])
  obtain ⟨h₃, h⟩ := List.append_inj (List.tail_eq_of_cons_eq h) (by simp [hds, hes])
  obtain ⟨h₄, h⟩ := List.append_inj (List.tail_eq_of_cons_eq h) (by simp [hds, hes])
  have h₅ := List.tail_eq_of_cons_eq h
  rw [← joined hds, ← joined hes, h₁, h₂, h₃, h₄, h₅]

theorem toText_length (u : Uuid) : u.toText.toList.length = 36 := by
  rw [toText_toList, grouped_length (hexDigits_length 32 _)]

/-- Identifiers are told apart by their texts. -/
theorem toText_inj {u v : Uuid} (h : u.toText = v.toText) : u = v := by
  have hchars := congrArg String.toList h
  rw [toText_toList, toText_toList] at hchars
  have hdigits := grouped_inj (hexDigits_length 32 _) (hexDigits_length 32 _) hchars
  have hbits : u.bits = v.bits := hexDigits_inj u.bits_lt v.bits_lt hdigits
  cases u
  cases v
  simp_all

end Uuid

end Geotrack
