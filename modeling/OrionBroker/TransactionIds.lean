import OrionBroker.Cells
import Mathlib.Algebra.Group.Nat.Defs
import Mathlib.Data.List.Nodup
import Mathlib.Data.List.Range

/-!
# Transaction ids (`globals.cpp`)

The id of a transaction is made of the start time of the broker, down to milliseconds, and a running number of 31 bits.
When the running number starts again from 1, the start time is changed, so that the ids do not.  What is added is a
microsecond: the ids are the same as before unless the start time was at the end of a millisecond
(`transaction_ids_unique_iff`).
-/

namespace OrionBroker.TransactionIds

/-! ### The source -/

/-- The static variables of `transactionIdGet` and `transactionIdSet`, and `logStartTime`. -/
structure Statics where
  transactionId : Int := 0
  firstTime : Bool := true
  tv_sec : UInt64
  tv_usec : Int

/-- After `gettimeofday`. -/
def started (tv_sec : UInt64) (tv_usec : Int) : Statics := { tv_sec := tv_sec, tv_usec := tv_usec }

/-- The number that is returned and kept. -/
def transactionIdGet (readonly : Bool) (transactionId : Int) : Int :=
  if readonly then transactionId
  else
    let transactionId := Int.bmod (transactionId + 1) (2 ^ 32)
    if transactionId < 0 then 1 else transactionId

/-- `%0<width>d` of `printf`. -/
def padded (width : Nat) (n : Int) : List Char :=
  let digits := Nat.toDigits 10 n.natAbs
  if n < 0 then '-' :: (List.replicate (width - 1 - digits.length) '0' ++ digits)
  else List.replicate (width - digits.length) '0' ++ digits

/-- `"%lu-%03d-%011d"`, in an array of 64 characters. -/
def printed (tv_sec : UInt64) (tv_usec transaction : Int) : String :=
  String.ofList ((Nat.toDigits 10 tv_sec.toNat ++ '-' ::
    (padded 3 (Int.tdiv (Int.bmod tv_usec (2 ^ 32)) 1000) ++ '-' :: padded 11 transaction)).take 63)

/-- What a call prints, and the variables after it.  The semaphore of transactions is held while it is done. -/
def transactionIdSet (s : Statics) : String × Statics :=
  let transaction := transactionIdGet false s.transactionId
  let tv_usec := if s.firstTime = false ∧ transaction = 1 then s.tv_usec + 1 else s.tv_usec
  (printed s.tv_sec tv_usec transaction,
    { transactionId := transaction, firstTime := false, tv_sec := s.tv_sec, tv_usec := tv_usec })

/-- What a number of calls print, one after the other. -/
def calls : Nat → Statics → List String
  | 0, _ => []
  | n + 1, s => (transactionIdSet s).1 :: calls n (transactionIdSet s).2

/-! ### The calls -/

/-- The greatest running number. -/
abbrev lastNumber : Nat := 2147483647

section Calls

variable (tv_sec : UInt64) (tv_usec : Int)

/-- The variables after some calls. -/
def stateAfter (k : Nat) : Statics where
  transactionId := if k = 0 then 0 else ((k - 1) % lastNumber + 1 : Nat)
  firstTime := k = 0
  tv_sec := tv_sec
  tv_usec := tv_usec + ((k - 1) / lastNumber : Nat)

/-- What the call after some calls prints. -/
def idAfter (k : Nat) : String := printed tv_sec (tv_usec + (k / lastNumber : Nat)) ((k % lastNumber + 1 : Nat) : Int)

theorem transactionIdGet_false {n : Nat} (h : n ≤ lastNumber) :
    transactionIdGet false n = if n = lastNumber then 1 else ((n + 1 : Nat) : Int) := by
  unfold lastNumber at *
  unfold transactionIdGet
  rw [if_neg (by decide)]
  dsimp only
  by_cases hlast : n = 2147483647
  · have hwrapped : Int.bmod ((n : Int) + 1) (2 ^ 32) = -2147483648 := by
      rw [hlast]
      decide
    rw [hwrapped, if_pos (by decide), if_pos hlast]
  · have hnext : Int.bmod ((n : Int) + 1) (2 ^ 32) = n + 1 := Int.bmod_eq_of_le (by omega) (by omega)
    rw [hnext, if_neg (by omega), if_neg hlast]
    rfl

theorem transactionIdSet_stateAfter (k : Nat) :
    transactionIdSet (stateAfter tv_sec tv_usec k) = (idAfter tv_sec tv_usec k, stateAfter tv_sec tv_usec (k + 1)) := by
  cases k with
  | zero =>
    have hget : transactionIdGet false 0 = 1 := by decide
    simp [transactionIdSet, stateAfter, idAfter, hget]
  | succ k =>
    have hget := @transactionIdGet_false (k % lastNumber + 1) (Nat.mod_lt k (by decide))
    unfold transactionIdSet stateAfter idAfter
    simp only [Nat.add_one_ne_zero, if_false, Nat.add_sub_cancel, decide_false, true_and]
    rw [hget]
    unfold lastNumber
    by_cases hlast : k % 2147483647 + 1 = 2147483647
    · -- the running number starts again
      have hquotient : (k + 1) / 2147483647 = k / 2147483647 + 1 := by omega
      have hrest : (k + 1) % 2147483647 = 0 := by omega
      rw [if_pos hlast, if_pos rfl, hquotient, hrest]
      simp [Int.add_assoc]
    · have hquotient : (k + 1) / 2147483647 = k / 2147483647 := by omega
      have hrest : (k + 1) % 2147483647 = k % 2147483647 + 1 := by omega
      rw [if_neg hlast, if_neg (by omega), hquotient, hrest]

theorem calls_stateAfter (n k : Nat) :
    calls n (stateAfter tv_sec tv_usec k) = (List.range' k n).map (idAfter tv_sec tv_usec) := by
  induction n generalizing k with
  | zero => rfl
  | succ n ih =>
    rw [calls, transactionIdSet_stateAfter, ih, List.range'_succ]
    rfl

theorem calls_started (n : Nat) : calls n (started tv_sec tv_usec) = (List.range n).map (idAfter tv_sec tv_usec) := by
  have hstart : started tv_sec tv_usec = stateAfter tv_sec tv_usec 0 := by
    simp [started, stateAfter]
  rw [hstart, calls_stateAfter, List.range_eq_range']

end Calls

/-! ### The text -/

section Text

theorem padded_of_nat (width n : Nat) :
    padded width n = List.replicate (width - (Nat.toDigits 10 n).length) '0' ++ Nat.toDigits 10 n := by
  unfold padded
  rw [if_neg (by omega)]
  rfl

theorem padded_injective {width n m : Nat} (h : padded width n = padded width m) : n = m := by
  have hvalue : ∀ n : Nat, Nat.ofDigitChars 10 (padded width n) 0 = n := by
    intro n
    rw [padded_of_nat, Nat.ofDigitChars_append, Nat.ofDigitChars_replicate_zero, Nat.mul_zero, Nat.ofDigitChars_ten_toDigits]
  rw [← hvalue n, h, hvalue]

theorem not_mem_padded (width n : Nat) : '-' ∉ padded width n := by
  rw [padded_of_nat, List.mem_append, not_or]
  refine ⟨fun hmem => absurd (List.eq_of_mem_replicate hmem) (by decide), fun hmem => ?_⟩
  exact absurd (Nat.isDigit_of_mem_toDigits (by decide) (by decide) hmem) (by decide)

theorem length_padded {width n : Nat} (hpos : 0 < width) (h : n < 10 ^ width) : (padded width n).length = width := by
  rw [← Nat.length_toDigits_le_iff (by decide) hpos] at h
  rw [padded_of_nat, List.length_append, List.length_replicate]
  omega

/-- Milliseconds have three digits, and one more in the last moment. -/
theorem length_padded_three {n : Nat} (h : n < 10 ^ 4) : (padded 3 n).length ≤ 4 := by
  rw [← Nat.length_toDigits_le_iff (by decide) (by decide)] at h
  rw [padded_of_nat, List.length_append, List.length_replicate]
  omega

/-- The text has space in the array. -/
theorem printed_of_lt {tv_sec : UInt64} {tv_usec transaction : Nat} (husec : tv_usec < 2000000)
    (htransaction : transaction < 2 ^ 31) :
    printed tv_sec tv_usec transaction =
      String.ofList (Nat.toDigits 10 tv_sec.toNat ++ '-' :: (padded 3 (tv_usec / 1000 : Nat) ++ '-' :: padded 11 transaction)) := by
  have hcast : Int.bmod tv_usec (2 ^ 32) = tv_usec := Int.bmod_eq_of_le (by omega) (by omega)
  have hdiv : Int.tdiv (tv_usec : Int) 1000 = (tv_usec / 1000 : Nat) := rfl
  have hsec : (Nat.toDigits 10 tv_sec.toNat).length ≤ 20 := by
    rw [Nat.length_toDigits_le_iff (by decide) (by decide)]
    exact Nat.lt_trans tv_sec.toNat_lt (by decide)
  have hms := @length_padded_three (tv_usec / 1000) (by omega)
  have hnumber := @length_padded 11 transaction (by decide) (by omega)
  unfold printed
  rw [hcast, hdiv, List.take_of_length_le]
  simp only [List.length_append, List.length_cons]
  omega

theorem printed_inj {tv_sec : UInt64} {tv_usec tv_usec' transaction transaction' : Nat} (husec : tv_usec < 2000000)
    (husec' : tv_usec' < 2000000) (h : transaction < 2 ^ 31) (h' : transaction' < 2 ^ 31) :
    printed tv_sec tv_usec transaction = printed tv_sec tv_usec' transaction' ↔
      tv_usec / 1000 = tv_usec' / 1000 ∧ transaction = transaction' := by
  rw [printed_of_lt husec h, printed_of_lt husec' h', String.ofList_inj, List.append_cancel_left_eq, List.cons.injEq]
  constructor
  · rintro ⟨-, heq⟩
    have hfront : ∀ (n : Nat) (back : List Char), Cells.upTo '-' (padded 3 n ++ '-' :: back) = padded 3 n := by
      intro n back
      rw [Cells.upTo_append (not_mem_padded 3 n)]
      simp [Cells.upTo]
    have hms := congrArg (Cells.upTo '-') heq
    rw [hfront, hfront] at hms
    rw [hms, List.append_cancel_left_eq, List.cons.injEq] at heq
    exact ⟨padded_injective hms, padded_injective heq.2⟩
  · rintro ⟨hms, rfl⟩
    rw [hms]
    exact ⟨rfl, rfl⟩

end Text

/-! ### Unique ids -/

section Unique

variable {tv_sec : UInt64} {tv_usec : Nat}

theorem idAfter_eq_iff (husec : tv_usec < 1000000) {k k' : Nat} (hk : k / lastNumber ≤ 2) (hk' : k' / lastNumber ≤ 2) :
    idAfter tv_sec tv_usec k = idAfter tv_sec tv_usec k' ↔
      (tv_usec + k / lastNumber) / 1000 = (tv_usec + k' / lastNumber) / 1000 ∧ k % lastNumber = k' % lastNumber := by
  have hnumber : ∀ k, k % lastNumber + 1 < 2 ^ 31 := by
    intro k
    have hlt : k % lastNumber < 2147483647 := Nat.mod_lt k (by decide)
    omega
  unfold idAfter
  rw [← Int.natCast_add, ← Int.natCast_add, printed_inj (by omega) (by omega) (hnumber k) (hnumber k')]
  omega

/-- The first id after the running number has started again. -/
theorem idAfter_again (husec : tv_usec < 1000000) (h : tv_usec % 1000 ≠ 999) :
    idAfter tv_sec tv_usec 0 = idAfter tv_sec tv_usec lastNumber := by
  rw [idAfter_eq_iff husec (by decide) (by decide)]
  refine ⟨?_, by decide⟩
  show tv_usec / 1000 = (tv_usec + 1) / 1000
  omega

/-- The first id after it has started again twice. -/
theorem idAfter_twice (husec : tv_usec < 1000000) (h : tv_usec % 1000 = 999) :
    idAfter tv_sec tv_usec lastNumber = idAfter tv_sec tv_usec (2 * lastNumber) := by
  rw [idAfter_eq_iff husec (by decide) (by decide)]
  refine ⟨?_, by decide⟩
  show (tv_usec + 1) / 1000 = (tv_usec + 2) / 1000
  omega

/-- Ids that are the same. -/
theorem not_nodup_calls {n k k' : Nat} (hne : k ≠ k') (hk : k < n) (hk' : k' < n)
    (h : idAfter tv_sec tv_usec k = idAfter tv_sec tv_usec k') : ¬(calls n (started tv_sec tv_usec)).Nodup := by
  rw [calls_started]
  intro hnodup
  exact hne (List.inj_on_of_nodup_map hnodup (List.mem_range.2 hk) (List.mem_range.2 hk') h)

variable (tv_sec tv_usec)

/-- The ids are unique up to the end of the running numbers, and once more if the start time is in the last microsecond
of a millisecond. -/
theorem transaction_ids_unique_iff (husec : tv_usec < 1000000) (n : Nat) :
    (calls n (started tv_sec tv_usec)).Nodup ↔ n ≤ lastNumber ∨ tv_usec % 1000 = 999 ∧ n ≤ 2 * lastNumber := by
  constructor
  · intro hnodup
    by_contra hlong
    rw [not_or, not_and] at hlong
    by_cases hlast : tv_usec % 1000 = 999
    · have htwice := hlong.2 hlast
      exact not_nodup_calls (by decide) (by omega) (by omega) (idAfter_twice husec hlast) hnodup
    · exact not_nodup_calls (by decide) (by omega) (by omega) (idAfter_again husec hlast) hnodup
  · intro hshort
    rw [calls_started]
    refine List.Nodup.map_on ?_ List.nodup_range
    intro k hk k' hk' heq
    rw [List.mem_range] at hk hk'
    simp only [lastNumber] at hshort
    have hcycle : ∀ k, k < n → k / lastNumber ≤ 2 := by
      intro k hk
      simp only [lastNumber]
      omega
    rw [idAfter_eq_iff husec (hcycle k hk) (hcycle k' hk')] at heq
    simp only [lastNumber] at heq
    omega

/-- Three transactions. -/
theorem transaction_ids_unique_three :
    (calls 3 (started 0 (0 : Nat))).Nodup ↔ 3 ≤ lastNumber ∨ 0 % 1000 = 999 ∧ 3 ≤ 2 * lastNumber :=
  transaction_ids_unique_iff 0 0 (by decide) 3

/-- When the running number has started again, the first id of a broker that was started at the beginning of a second
is printed again. -/
theorem first_id_again : ¬(calls (lastNumber + 1) (started 0 (0 : Nat))).Nodup :=
  not_nodup_calls (by decide) (by decide) (by decide) (idAfter_again (by decide) (by decide))

end Unique

end OrionBroker.TransactionIds
