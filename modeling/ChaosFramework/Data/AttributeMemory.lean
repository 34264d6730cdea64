import ChaosFramework.Data.AttributeValue
import ChaosFramework.Transition

/-!
# Memory safety of an attribute value

The size of a value is at most the size of the block, and the readers stay inside of the block,
exactly in the runs in which five things do not happen:

* the constructor is given a size that the type does not fit into;
* a size is rounded up beyond 32 bits, so that the block is empty;
* `realloc` fails, after the sizes have been set and with the old pointer lost;
* a string or a buffer of four gigabytes or more is copied, for which the block is too small;
* a string, or the text of a document, is left without a zero byte in the block.
-/

namespace ChaosFramework.Data

open Bytes Transition List Option

namespace AttributeValue

def step (a : AttributeValue) (c : Call) : Option AttributeValue :=
  some (c.operation.perform a c.realloc).1

/-- The sizes are in order, no copy has left the block, and no reader does. -/
structure Safe {Doc : Type*} (json : Json Doc) (a : AttributeValue) : Prop where
  size_le : a.size ≤ a.bufSize
  bufSize_le : a.bufSize ≤ a.allocated.length
  intact : a.corrupted = false
  writes : (a.writeToCDataWrapper json).isSome
  prints : a.toString.isSome
  converts : (a.getAsVariant json).isSome

/-! ### The condition -/

/-- A string is terminated inside of its block, if it has one; the text of a document needs one. -/
def Terminated (type : DataType) (block : Option (List Byte)) : Prop :=
  (type = .string → ∀ bytes ∈ block, 0 ∈ bytes) ∧
    (type = .cluster → ∃ bytes ∈ block, 0 ∈ bytes)

instance decidableTerminated (type : DataType) (block : Option (List Byte)) :
    Decidable (Terminated type block) :=
  inferInstanceAs (Decidable (_ ∧ _))

/-- The block is large enough, or can be made so. -/
def Room (a : AttributeValue) (c : Call) (n : ℕ) : Prop :=
  n ≤ a.bufSize ∨ n ≤ 4294967292 ∧ c.realloc.isSome

instance decidableRoom (a : AttributeValue) (c : Call) (n : ℕ) : Decidable (a.Room c n) :=
  inferInstanceAs (Decidable (_ ∨ _))

/-- There is room for the value, and a string is terminated behind what is copied. -/
def Careful (a : AttributeValue) (c : Call) : Prop :=
  (∀ n ∈ c.operation.requested, a.Room c n) ∧
    (c.operation.copied (a.newSize c)).length ≤ a.newSize c ∧
    Terminated a.type ((a.newBlock c).map (overwrite (c.operation.copied (a.newSize c))))

instance decidableCareful (a : AttributeValue) (c : Call) : Decidable (a.Careful c) :=
  inferInstanceAs (Decidable (_ ∧ _ ∧ _))

/-- The size that the constructor allocates. -/
def initialSize (type : DataType) (n : ℕ) : ℕ :=
  if type = .string then (n + 1) % 4294967296 else n

/-- The type fits into the rounded size, and a document has a block. -/
def Fits (type : DataType) (n : ℕ) : Prop :=
  initialSize type n ≤ 4294967292 ∧
    (∀ width ∈ type.width, width ≤ aligned (initialSize type n)) ∧
    (type = .cluster → initialSize type n ≠ 0)

instance decidableFits (type : DataType) (n : ℕ) : Decidable (Fits type n) :=
  inferInstanceAs (Decidable (_ ∧ _ ∧ _))

/-! ### The readers -/

variable {a t : AttributeValue} {n : ℕ} {realloc : Realloc} {type : DataType} {c : Call}
  {o : Operation}

theorem isSome_read : (a.read n).isSome ↔ n ≤ a.allocated.length := by
  unfold read
  split
  next inside => exact iff_of_true rfl inside
  next outside => exact iff_of_false Bool.false_ne_true outside

theorem isSome_cString : a.cString.isSome ↔ 0 ∈ a.allocated := by
  rw [cString, isSome_map, isSome_iff_ne_none, ne_eq, untilNull_eq_none, not_not]

theorem mem_allocated : 0 ∈ a.allocated ↔ ∃ bytes ∈ a.valueBuffer, 0 ∈ bytes := by
  unfold allocated
  cases a.valueBuffer with
  | none => simp
  | some bytes => simp

/-- What the invariant says about the state between the calls. -/
structure Sound (a : AttributeValue) : Prop extends Measured a where
  size_le : a.size ≤ a.bufSize
  intact : a.corrupted = false
  wide : ∀ width ∈ a.type.width, width ≤ a.bufSize
  terminated : Terminated a.type a.valueBuffer

section Readers

variable {Doc : Type*} {json : Json Doc} {a : AttributeValue}

theorem Sound.writes (sound : a.Sound) : (a.writeToCDataWrapper json).isSome := by
  have inside : a.size ≤ a.allocated.length := sound.size_le.trans sound.length_eq.ge
  have wide := sound.wide
  obtain ⟨string, hc⟩ := sound.terminated
  rw [← sound.length_eq] at wide
  unfold writeToCDataWrapper
  split <;> rename_i type <;> rw [type] at wide
  case h_1 => simpa [isSome_read] using inside
  case h_2 =>
    have zero := mem_allocated.mpr (hc type)
    split
    · rfl
    · have one : 1 ≤ a.allocated.length := length_pos_of_mem zero
      rw [read, if_pos one, bind_some]
      split
      · rfl
      · rw [isSome_map, isSome_cString]
        exact zero
  case h_3 =>
    split
    · rfl
    next bytes block =>
      rw [isSome_map, isSome_cString, mem_allocated]
      exact ⟨bytes, block, string type bytes block⟩
  case h_8 => rfl
  all_goals simpa [getValuePtr, isSome_read] using wide _ rfl

theorem Sound.prints (sound : a.Sound) : a.toString.isSome := by
  have inside : a.size ≤ a.allocated.length := sound.size_le.trans sound.length_eq.ge
  have wide := sound.wide
  rw [← sound.length_eq] at wide
  unfold toString
  split <;> rename_i type <;> rw [type] at wide
  case h_1 | h_8 => rfl
  case h_2 | h_3 => exact isSome_read.mpr inside
  all_goals exact isSome_read.mpr (wide _ rfl)

theorem Sound.converts (sound : a.Sound) : (a.getAsVariant json).isSome := by
  have inside : a.size ≤ a.allocated.length := sound.size_le.trans sound.length_eq.ge
  have wide := sound.wide
  rw [← sound.length_eq] at wide
  unfold getAsVariant
  split <;> rename_i type <;> rw [type] at wide
  case h_5 =>
    rw [isSome_map, isSome_cString]
    exact mem_allocated.mpr (sound.terminated.2 type)
  case h_6 | h_7 => simpa [isSome_read] using inside
  case h_8 => rfl
  all_goals simpa [isSome_read] using wide _ rfl

theorem Sound.safe (sound : a.Sound) : a.Safe json where
  size_le := sound.size_le
  bufSize_le := sound.length_eq.ge
  intact := sound.intact
  writes := sound.writes
  prints := sound.prints
  converts := sound.converts

theorem Safe.terminated (safe : a.Safe json) : Terminated a.type a.valueBuffer := by
  constructor
  · intro string bytes block
    have hw := safe.writes
    have found : a.valueBuffer = some bytes := block
    rw [writeToCDataWrapper, string, found] at hw
    simp only [isSome_map, isSome_cString] at hw
    obtain ⟨same, isBlock, zero⟩ := mem_allocated.mp hw
    obtain rfl := Option.some.inj (isBlock.symm.trans found)
    exact zero
  · intro hc
    have converts := safe.converts
    rw [getAsVariant, hc, isSome_map, isSome_cString] at converts
    exact mem_allocated.mp converts

theorem Safe.wide (safe : a.Safe json) : ∀ width ∈ a.type.width, width ≤ a.allocated.length := by
  intro width number
  have converts := safe.converts
  unfold getAsVariant at converts
  cases type : a.type <;> rw [type] at number converts <;> cases number
  all_goals simpa [isSome_read] using converts

end Readers

/-! ### One call -/

theorem le_aligned (small : n ≤ 4294967292) : n ≤ aligned n := by
  unfold aligned
  split <;> omega

theorem aligned_of_large (large : 4294967292 < n) (hb : n < 4294967296) : aligned n = 0 := by
  unfold aligned
  split <;> omega

theorem requested_lt (asked : n ∈ o.requested) : n < 4294967296 := by
  have wraps (m : ℕ) : m % 4294967296 < 4294967296 := Nat.mod_lt _ (by decide)
  cases o with
  | setNewSize size clear =>
    cases asked
    exact size.toNat_lt
  | setValue val =>
    cases asked
    exact val.2
  | setValueOfVariant val =>
    obtain ⟨-, same⟩ := ite_none_left_eq_some.mp asked
    exact Option.some.inj same ▸ wraps _
  | setStringValue val enlarge =>
    obtain ⟨-, same⟩ := ite_none_right_eq_some.mp asked
    exact Option.some.inj same ▸ wraps _
  | setValueOfWrapper json =>
    cases asked
    exact wraps _

/-- Only a variant can ask for less than it copies, if it has four gigabytes. -/
theorem length_copied_le (small : (o.copied (o.requested.getD n)).length < 4294967296) :
    (o.copied (o.requested.getD n)).length ≤ o.requested.getD n := by
  cases o with
  | setNewSize size clear => exact Nat.zero_le _
  | setValue val => exact le_rfl
  | setValueOfVariant val =>
    by_cases none : val.type = .undefined
    · simp [Operation.copied, none]
    · simp only [Operation.copied, Operation.requested, none] at small ⊢
      exact (Nat.mod_eq_of_lt small).ge
  | setStringValue val enlarge | setValueOfWrapper json => exact (length_padded _ _).le

/-- With room the resize succeeds, the block grows, and the value fits. -/
theorem resize_of_room (inside : a.size ≤ a.bufSize)
    (room : ∀ n ∈ c.operation.requested, a.Room c n) :
    (a.resize c.realloc c.operation).2 = true ∧
      a.bufSize ≤ (a.resize c.realloc c.operation).1.bufSize ∧
      (a.resize c.realloc c.operation).1.size ≤ (a.resize c.realloc c.operation).1.bufSize := by
  unfold resize
  cases asked : c.operation.requested with
  | none => exact ⟨rfl, le_rfl, inside⟩
  | some n =>
    by_cases fits : n ≤ a.bufSize
    · simp only [setNewSize, if_pos fits]
      exact ⟨trivial, le_rfl, fits⟩
    · obtain ⟨small, hg⟩ := (room n asked).resolve_left fits
      obtain ⟨garbage, answer⟩ := isSome_iff_exists.mp hg
      have enough : n ≤ aligned n := le_aligned small
      simp only [setNewSize, if_neg fits, answer]
      exact ⟨trivial, (Nat.le_of_not_le fits).trans enough, enough⟩

theorem step_sound (sound : a.Sound) (hc : a.Careful c) (taken : step a c = some t) : t.Sound := by
  cases taken
  obtain ⟨room, short, terminated⟩ := hc
  obtain ⟨hg, grows, size_le⟩ := resize_of_room sound.size_le room
  have resized := resize_granted sound.toMeasured hg
  rw [c.operation.perform_eq, if_pos hg, resized.size_eq]
  generalize (a.resize c.realloc c.operation).1 = b at resized grows size_le
  have inside : (c.operation.copied (a.newSize c)).length ≤ b.allocated.length := by
    rw [resized.length_eq]
    exact short.trans (resized.size_eq.symm.le.trans size_le)
  rw [copy, if_pos inside]
  refine ⟨⟨?_, resized.small⟩, size_le, resized.corrupted_eq.trans sound.intact, ?_, ?_⟩
  · rw [← resized.length_eq]
    exact length_map_overwrite inside
  · intro width number
    rw [resized.type_eq] at number
    exact (sound.wide width number).trans grows
  · rw [resized.type_eq, resized.valueBuffer_eq]
    exact terminated

theorem careful_of_safe {Doc : Type*} {json : Json Doc}
    (sound : a.Sound) (taken : step a c = some t) (safe : t.Safe json) : a.Careful c := by
  cases taken
  have room : ∀ n ∈ c.operation.requested, a.Room c n := by
    intro n asked
    by_contra full
    obtain ⟨larger, hr⟩ := not_or.mp full
    have size_le := safe.size_le
    have bufSize_le := safe.bufSize_le
    rw [c.operation.perform_eq] at size_le bufSize_le
    have asked : c.operation.requested = some n := asked
    simp only [resize, asked, setNewSize, if_neg larger] at size_le bufSize_le
    cases answer : c.realloc with
    | none =>
      simp only [answer] at size_le bufSize_le
      exact larger ((size_le.trans bufSize_le).trans (Nat.zero_le _))
    | some garbage =>
      have large : 4294967292 < n := by
        by_contra small
        exact hr ⟨not_lt.mp small, by rw [answer]; rfl⟩
      simp only [answer, if_true, copy_size, copy_bufSize,
        aligned_of_large large (requested_lt asked)] at size_le
      exact larger (size_le.trans (Nat.zero_le _))
  obtain ⟨hg, -, -⟩ := resize_of_room sound.size_le room
  have resized := resize_granted sound.toMeasured hg
  have intact := safe.intact
  have terminated := safe.terminated
  rw [c.operation.perform_eq, if_pos hg, resized.size_eq] at intact terminated
  generalize (a.resize c.realloc c.operation).1 = b at resized intact terminated
  have inside : (c.operation.copied (a.newSize c)).length ≤ b.allocated.length := by
    by_contra ho
    rw [copy, if_neg ho] at intact
    exact Bool.noConfusion intact
  refine ⟨room, length_copied_le ?_, ?_⟩
  · have length := resized.length_eq
    have small := resized.small
    unfold newSize at inside
    omega
  · rw [copy, if_pos inside, resized.type_eq, resized.valueBuffer_eq] at terminated
    exact terminated

/-! ### The constructor -/

section

variable (new : construct type n realloc = some a)

include new

theorem construct_cases :
    a.type = type ∧ a.size = initialSize type n ∧ a.bufSize = aligned (initialSize type n) ∧
      a.corrupted = false ∧
      a.valueBuffer = if initialSize type n = 0 then none
        else some (replicate (aligned (initialSize type n)) 0) := by
  change (if initialSize type n = 0 then _ else _) = _ at new
  split at new
  next zero =>
    obtain rfl := Option.some.inj new
    rw [if_pos zero]
    exact ⟨rfl, rfl, by rw [zero]; rfl, rfl, rfl⟩
  next positive =>
    have larger : ¬ initialSize type n ≤ 0 := by omega
    rw [if_neg positive]
    split at new
    next b isNew =>
      obtain rfl := Option.some.inj new
      have hr : setNewSize ⟨type, initialSize type n, 0, none, false⟩ (initialSize type n)
          true realloc = (b, true) := isNew
      simp only [setNewSize, if_neg larger] at hr
      cases realloc with
      | none => cases hr
      | some garbage =>
        obtain ⟨rfl, -⟩ := Prod.mk.inj hr
        exact ⟨rfl, rfl, rfl, rfl, by rw [block, if_neg larger]; rfl⟩
    next => cases new

theorem measured_of_construct : a.Measured := by
  obtain ⟨-, -, bufSize, -, block⟩ := construct_cases new
  refine ⟨?_, bufSize ▸ aligned_le _⟩
  rw [allocated, block, bufSize]
  split
  next zero => rw [zero]; rfl
  next => exact length_replicate

theorem sound_of_fits (fits : Fits type n) : a.Sound := by
  have hm := measured_of_construct new
  obtain ⟨rfl, size, bufSize, intact, block⟩ := construct_cases new
  obtain ⟨small, wide, hc⟩ := fits
  have enough := le_aligned small
  rw [← bufSize] at enough wide block
  refine ⟨hm, size.le.trans enough, intact, wide, ?_⟩
  rw [block]
  split
  next zero => exact ⟨fun _ _ => nofun, fun isCluster => (hc isCluster zero).elim⟩
  next positive =>
    have zero : (0 : Byte) ∈ replicate a.bufSize 0 :=
      mem_replicate.mpr ⟨by omega, rfl⟩
    refine ⟨?_, fun _ => ⟨_, rfl, zero⟩⟩
    rintro - bytes isBlock
    cases isBlock
    exact zero

end

theorem fits_of_safe {Doc : Type*} {json : Json Doc} {n : UInt32}
    (new : construct type n.toNat realloc = some a) (safe : a.Safe json) :
    Fits type n.toNat := by
  have hm := measured_of_construct new
  obtain ⟨rfl, size, bufSize, -, block⟩ := construct_cases new
  have hb : initialSize a.type n.toNat < 4294967296 := by
    have := n.toNat_lt
    unfold initialSize
    split <;> omega
  have size_le := safe.size_le
  have wide := safe.wide
  have terminated := safe.terminated
  rw [hm.length_eq, bufSize] at wide
  refine ⟨?_, wide, ?_⟩
  · by_contra large
    have none := aligned_of_large (not_le.mp large) hb
    omega
  · intro hc zero
    rw [block, if_pos zero] at terminated
    obtain ⟨bytes, isBlock, -⟩ := terminated.2 hc
    cases isBlock

/-! ### Runs -/

theorem safe_iff_careful {Doc : Type*} (json : Json Doc) (type : DataType) (n : UInt32)
    (realloc : Realloc) {a t : AttributeValue} {calls : List Call}
    (new : construct type n.toNat realloc = some a) (run : execute step a calls = some t) :
    Fits type n.toNat ∧ Admissible step Careful a calls ↔
      ∀ k r, execute step a (calls.take k) = some r → r.Safe json := by
  constructor
  · rintro ⟨fits, hc⟩
    exact (admissible_iff_forall_reached step_sound Sound.safe careful_of_safe
      (sound_of_fits new fits) run).mp hc
  · intro safe
    have fits : Fits type n.toNat := fits_of_safe new (safe 0 a rfl)
    exact ⟨fits, (admissible_iff_forall_reached step_sound Sound.safe careful_of_safe
      (sound_of_fits new fits) run).mpr safe⟩

/-- A string attribute is created, filled and enlarged. -/
def carefulCalls : List Call :=
  [⟨.setStringValue [97, 98] false, none⟩, ⟨.setNewSize 16 true, some []⟩,
    ⟨.setValueOfVariant (.ofString [97, 98, 99]), none⟩]

theorem safe_iff_careful_string :
    ∃ a t, construct .string (7 : UInt32).toNat (some []) = some a ∧
      execute step a carefulCalls = some t ∧
      ∀ k r, execute step a (carefulCalls.take k) = some r →
        r.Safe (⟨(), fun _ => none⟩ : Json Unit) :=
  ⟨_, _, rfl, rfl, (safe_iff_careful _ .string 7 (some []) rfl rfl).mp (by decide)⟩

/-- A string attribute of three characters is given a string of four. The four bytes of its block
are the characters, and `strlen` does not find an end among them. -/
theorem string_without_end :
    ∃ a t, construct .string (3 : UInt32).toNat (some []) = some a ∧
      execute step a [⟨.setValueOfVariant (.ofString [97, 98, 99, 100]), none⟩] = some t ∧
      t.writeToCDataWrapper (⟨(), fun _ => none⟩ : Json Unit) = none :=
  ⟨_, _, rfl, rfl, rfl⟩

end AttributeValue

end ChaosFramework.Data
