import OrderFlow.Uuid

/-!
Decimal texts: `int(str(n))` gives `n` back as long as `int` takes that many digits,
and no text reads as a number of more.
-/
namespace OrderFlow

/-- The digits of a decimal text, most significant first. -/
theorem decimal_digits (n : Nat) : ∃ ds : List Nat, Nat.toDigits 10 n = ds.map Nat.digitChar ∧
    ds ≠ [] ∧ (∀ d ∈ ds, d < 10) ∧ ds.foldl (fun acc d => acc * 10 + d) 0 = n := by
  induction n using Nat.strongRecOn with
  | ind n ih =>
    rw [Nat.toDigits_eq_if (by decide)]
    by_cases small : n < 10
    · exact ⟨[n], by simp [small], by simp, by simpa using small, by simp⟩
    · obtain ⟨ds, text, _, digits, value⟩ := ih (n / 10) (by omega)
      refine ⟨ds ++ [n % 10], by simp [small, text], by simp, ?_, ?_⟩
      · intro d member
        rcases List.mem_append.mp member with earlier | last
        · exact digits d earlier
        · obtain rfl := List.mem_singleton.mp last
          omega
      · rw [List.foldl_append, value, List.foldl_cons, List.foldl_nil]
        omega

theorem decimal_forall {holds : Char → Prop} (each : ∀ d < 10, holds (Nat.digitChar d)) (n : Nat) :
    ∀ c ∈ Nat.toDigits 10 n, holds c := by
  obtain ⟨ds, text, _, digits, _⟩ := decimal_digits n
  intro c member
  rw [text] at member
  obtain ⟨d, inside, rfl⟩ := List.mem_map.mp member
  exact each d (digits d inside)

theorem unsigned_decimal (n : Nat) :
    unsigned 10 (Nat.toDigits 10 n) = if n < 10 ^ 4300 then some n else none := by
  obtain ⟨ds, text, nonempty, digits, value⟩ := decimal_digits n
  have digit : ∀ d < 10, digitOf 10 (Nat.digitChar d) = some d ∧ Nat.digitChar d ≠ '_' := by decide
  have read : digitsOf 10 (Nat.toDigits 10 n) = some ds := by
    rw [text]
    exact digitsOf_map ds (fun d member => digit d (digits d member)) nonempty
  have length : ds.length ≤ 4300 ↔ n < 10 ^ 4300 := by
    rw [← Nat.length_toDigits_le_iff (by decide) (by decide), text, List.length_map]
  simp only [unsigned, read, Option.bind_eq_bind, Option.bind_some, true_and, value, ← length]
  by_cases short : ds.length ≤ 4300
  · rw [if_neg (by omega), if_pos short]
  · rw [if_pos (by omega), if_neg short]

/-- `int(str(n))`; past 4300 digits it raises ValueError. -/
theorem pyInt_toString (n : Nat) :
    pyInt 10 (toString n) = if n < 10 ^ 4300 then some (n : Int) else none := by
  rw [Nat.toString_eq_ofList_toDigits, pyInt_plain (decimal_forall (by decide) n), unsigned_decimal]
  split <;> rfl

/-! ### What `int` can return -/

theorem digitOf_lt {base d : Nat} {c : Char} (digit : digitOf base c = some d) : d < base := by
  simp only [digitOf, Option.ite_none_right_eq_some] at digit
  obtain ⟨small, same⟩ := digit
  exact Option.some.inj same ▸ small

theorem digitsOf_lt {base : Nat} {text : List Char} {ds : List Nat}
    (digits : digitsOf base text = some ds) : ∀ d ∈ ds, d < base := by
  fun_induction digitsOf base text generalizing ds with
  | case1 => cases digits
  | case2 c rest ih =>
    simp only [Option.bind_eq_bind, Option.bind_eq_some_iff] at digits
    obtain ⟨first, digit, later⟩ := digits
    have tail : ∀ more, (∀ {ds}, digitsOf base more = some ds → ∀ d ∈ ds, d < base) →
        (digitsOf base more).map (first :: ·) = some ds → ∀ d ∈ ds, d < base := by
      intro more smaller mapped d member
      obtain ⟨others, read, rfl⟩ := Option.map_eq_some_iff.mp mapped
      rcases List.mem_cons.mp member with rfl | inside
      · exact digitOf_lt digit
      · exact smaller read d inside
    split at later
    · cases later
      simpa using digitOf_lt digit
    · exact tail _ ih later
    · rename_i nonempty plain
      split at ih
      · exact (nonempty rfl).elim
      · exact (plain _ rfl).elim
      · exact tail _ ih later

theorem foldl_digits_lt {base : Nat} (ds : List Nat) (small : ∀ d ∈ ds, d < base) (start : Nat) :
    ds.foldl (fun acc d => acc * base + d) start < (start + 1) * base ^ ds.length := by
  induction ds generalizing start with
  | nil => simp
  | cons d rest ih =>
    have first : d < base := small d (List.mem_cons_self ..)
    have later := ih (fun d member => small d (List.mem_cons_of_mem _ member)) (start * base + d)
    have step : start * base + d + 1 ≤ (start + 1) * base := by
      rw [Nat.add_mul]
      omega
    calc (d :: rest).foldl (fun acc d => acc * base + d) start
        < (start * base + d + 1) * base ^ rest.length := later
      _ ≤ (start + 1) * base * base ^ rest.length := Nat.mul_le_mul_right _ step
      _ = (start + 1) * base ^ (d :: rest).length := by
          rw [List.length_cons, Nat.pow_succ', Nat.mul_assoc]

theorem unsigned_lt {text : List Char} {n : Nat} (read : unsigned 10 text = some n) :
    n < 10 ^ 4300 := by
  simp only [unsigned, Option.bind_eq_bind, Option.bind_eq_some_iff, true_and] at read
  obtain ⟨ds, digits, read⟩ := read
  split at read
  · cases read
  · rename_i short
    cases read
    have below := foldl_digits_lt ds (digitsOf_lt digits) 0
    rw [Nat.zero_add, Nat.one_mul] at below
    have wide : ∀ limit, ds.length ≤ limit → 10 ^ ds.length ≤ 10 ^ limit := fun limit within =>
      Nat.pow_le_pow_right (by decide) within
    exact Nat.lt_of_lt_of_le below (wide _ (Nat.le_of_not_lt short))

/-- `int` takes no text of more than 4300 digits. -/
theorem pyInt_lt {text : String} {n : Int} (read : pyInt 10 text = some n) :
    n.toNat < 10 ^ 4300 := by
  have signless : ∀ {digits : List Char} {n : Int},
      (unsigned 10 digits).map Int.ofNat = some n → n.toNat < 10 ^ 4300 := by
    intro digits n mapped
    obtain ⟨value, found, rfl⟩ := Option.map_eq_some_iff.mp mapped
    exact unsigned_lt found
  unfold pyInt at read
  split at read
  · obtain ⟨value, found, rfl⟩ := Option.map_eq_some_iff.mp read
    simp only [Option.bind_eq_bind, Option.bind_eq_some_iff, Option.pure_def,
      Option.some.injEq] at found
    obtain ⟨natural, _, rfl⟩ := found
    have positive : ∀ limit : Nat, 0 < 10 ^ limit := fun limit => Nat.pow_pos (by decide)
    have negative : (-(natural : Int)).toNat = 0 := by simp
    rw [negative]
    exact positive _
  · exact signless read
  · exact signless read

end OrderFlow
