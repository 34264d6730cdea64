import Mathlib.Data.Fin.Basic
import Mathlib.Data.List.Basic
import Mathlib.Data.List.Count
import Mathlib.Tactic.Ring

/-!
# Bytes

Numbers of a fixed width in memory, in both byte orders, and strings that end at the first
zero byte. A number is the same in memory and in a register up to the byte order of the host, so
that exchanging its bytes is reversing the list.
-/

namespace ChaosFramework.Bytes

open List Option

abbrev Byte := Fin 256

instance neZero_byte : NeZero 256 := ⟨by decide⟩

/-- For numbers of two bytes. -/
instance neZero_word : NeZero 65536 := ⟨by decide⟩

/-! ### Numbers -/

/-- The bytes of a number, the lowest one first. -/
def toBytes : ℕ → ℕ → List Byte
  | 0, _ => []
  | width + 1, n => Fin.ofNat 256 n :: toBytes width (n / 256)

def ofBytes : List Byte → ℕ
  | [] => 0
  | byte :: rest => byte.val + 256 * ofBytes rest

@[simp] theorem length_toBytes (width n : ℕ) : (toBytes width n).length = width := by
  induction width generalizing n with
  | zero => rfl
  | succ width ih => rw [toBytes, length_cons, ih]

theorem ofBytes_toBytes (width n : ℕ) : ofBytes (toBytes width n) = n % 256 ^ width := by
  induction width generalizing n with
  | zero => simp [toBytes, ofBytes, Nat.mod_one]
  | succ width ih => rw [toBytes, ofBytes, ih, Fin.val_ofNat, pow_succ', Nat.mod_mul]

theorem ofBytes_toBytes_of_lt {width n : ℕ} (small : n < 256 ^ width) :
    ofBytes (toBytes width n) = n := by
  rw [ofBytes_toBytes, Nat.mod_eq_of_lt small]

theorem ofBytes_lt (bytes : List Byte) : ofBytes bytes < 256 ^ bytes.length := by
  induction bytes with
  | nil => simp [ofBytes]
  | cons byte rest ih =>
    rw [ofBytes, length_cons]
    omega

theorem toBytes_ofBytes (bytes : List Byte) : toBytes bytes.length (ofBytes bytes) = bytes := by
  induction bytes with
  | nil => rfl
  | cons byte rest ih =>
    have high : ofBytes (byte :: rest) / 256 = ofBytes rest := by
      rw [ofBytes]
      omega
    have first : Fin.ofNat 256 (ofBytes (byte :: rest)) = byte := by
      ext
      rw [Fin.val_ofNat, ofBytes]
      omega
    rw [length_cons, toBytes, high, first, ih]

/-! ### Byte order -/

/-- The byte order of a host. -/
inductive Order
  | little | big
  deriving DecidableEq, Repr

namespace Order

/-- Between the order of the host and the little endian one, either way. -/
def convert (host : Order) (bytes : List Byte) : List Byte :=
  match host with
  | little => bytes
  | big => bytes.reverse

/-- A number in the memory of the host. -/
def store (host : Order) (width n : ℕ) : List Byte := host.convert (toBytes width n)

def load (host : Order) (bytes : List Byte) : ℕ := ofBytes (host.convert bytes)

variable (host : Order) (bytes : List Byte)

@[simp] theorem convert_convert : host.convert (host.convert bytes) = bytes := by
  cases host
  · rfl
  · exact reverse_reverse bytes

@[simp] theorem length_convert : (host.convert bytes).length = bytes.length := by
  cases host
  · rfl
  · exact length_reverse

@[simp] theorem length_store (width n : ℕ) : (host.store width n).length = width := by
  rw [store, length_convert, length_toBytes]

end Order

/-! ### Strings that end at a zero byte -/

/-- The bytes before the first zero byte, and those behind it. -/
def untilNull : List Byte → Option (List Byte × List Byte)
  | [] => none
  | byte :: rest =>
      if byte = 0 then some ([], rest)
      else (untilNull rest).map fun split => (byte :: split.1, split.2)

variable {str bytes : List Byte}

theorem untilNull_append (clean : 0 ∉ str) (rest : List Byte) :
    untilNull (str ++ 0 :: rest) = some (str, rest) := by
  induction str with
  | nil => rfl
  | cons byte str ih =>
    rw [mem_cons, not_or] at clean
    obtain ⟨different, clean⟩ := clean
    rw [cons_append, untilNull, if_neg (Ne.symm different), ih clean]
    rfl

theorem untilNull_eq_some {rest : List Byte} :
    untilNull bytes = some (str, rest) ↔ bytes = str ++ 0 :: rest ∧ 0 ∉ str := by
  constructor
  · intro found
    induction bytes generalizing str with
    | nil => cases found
    | cons byte bytes ih =>
      rw [untilNull] at found
      split at found
      next zero =>
        obtain ⟨rfl, rfl⟩ := Prod.mk.inj (Option.some.inj found)
        exact ⟨by rw [zero, nil_append], not_mem_nil⟩
      next different =>
        obtain ⟨⟨front, back⟩, split, pair⟩ := map_eq_some_iff.mp found
        obtain ⟨rfl, rfl⟩ := Prod.mk.inj pair
        obtain ⟨rfl, clean⟩ := ih split
        refine ⟨rfl, ?_⟩
        rw [mem_cons, not_or]
        exact ⟨Ne.symm different, clean⟩
  · rintro ⟨rfl, clean⟩
    exact untilNull_append clean rest

theorem untilNull_eq_none : untilNull bytes = none ↔ 0 ∉ bytes := by
  induction bytes with
  | nil => simp [untilNull]
  | cons byte bytes ih =>
    rw [untilNull]
    split
    next zero => simp [zero]
    next different => simp [ih, Ne.symm different]

/-- Bytes without a zero byte in front only lengthen the string. -/
theorem untilNull_append_of_clean {front : List Byte} (clean : 0 ∉ front) (rest : List Byte) :
    untilNull (front ++ rest) = (untilNull rest).map fun split => (front ++ split.1, split.2) := by
  induction front with
  | nil => simp
  | cons byte front ih =>
    rw [mem_cons, not_or] at clean
    rw [cons_append, untilNull, if_neg (Ne.symm clean.1), ih clean.2, Option.map_map]
    rfl

/-- The zero bytes at the start of a list that begins with a string. -/
theorem count_take_append (clean : 0 ∉ str) (rest : List Byte) (n : ℕ) :
    ((str ++ 0 :: rest).take n).count 0 =
      if str.length < n then (rest.take (n - str.length - 1)).count 0 + 1 else 0 := by
  rw [take_append, count_append,
    count_eq_zero.mpr fun zero => clean (mem_of_mem_take zero), Nat.zero_add]
  split
  next longer =>
    obtain ⟨m, rfl⟩ : ∃ m, n = str.length + m + 1 := ⟨n - str.length - 1, by omega⟩
    rw [show str.length + m + 1 - str.length = m + 1 by omega, take_succ_cons,
      count_cons_self, Nat.add_sub_cancel]
  next shorter =>
    rw [Nat.sub_eq_zero_of_le (by omega), take_zero, count_nil]

/-- Strings, each behind the other with a zero byte at its end. -/
def terminated (strings : List (List Byte)) : List Byte := strings.flatMap (· ++ [0])

@[simp] theorem terminated_nil : terminated [] = [] := rfl

theorem terminated_cons (str : List Byte) (strs : List (List Byte)) :
    terminated (str :: strs) = str ++ 0 :: terminated strs := by
  simp [terminated]

theorem length_terminated (strs : List (List Byte)) :
    (terminated strs).length = (strs.map fun str => str.length + 1).sum := by
  simp [terminated]

/-- Strings, each behind its length in four bytes. -/
def counted (strings : List (List Byte)) : List Byte :=
  strings.flatMap fun string => toBytes 4 string.length ++ string

@[simp] theorem counted_nil : counted [] = [] := rfl

theorem counted_cons (str : List Byte) (strs : List (List Byte)) :
    counted (str :: strs) = toBytes 4 str.length ++ (str ++ counted strs) := by
  simp [counted]

end ChaosFramework.Bytes
