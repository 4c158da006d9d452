import Mathlib.Data.List.AList
import SewaConnect.Runs.Refinement

/-! `Bag.swift`: the collection of a subject's observers. The first element lies in a slot
of its own, the next thirty in an array, the others in a dictionary, and the flag
`onlyFastPath` lets a dispatch stop after the slot. The abstract bag is a finite map from
the keys handed out; `bagRefines` shows that the three stores together are that map as
long as the 64-bit counter has not come round. -/

namespace SewaConnect.Rx

open Runs Runs.System

def arrayDictionaryMaxSize : ℕ := 30

structure BagKey where
  rawValue : UInt64
  deriving DecidableEq

/-- The key of the insertion of this number, counted from 0. -/
def BagKey.ofNat (n : ℕ) : BagKey := ⟨UInt64.ofNat n⟩

abbrev Entry (T : Type*) := (_ : BagKey) × T

structure Bag (T : Type*) where
  nextKey : BagKey := ⟨0⟩
  key0 : Option BagKey := none
  value0 : Option T := none
  pairs : List (Entry T) := []
  dictionary : Option (AList fun _ : BagKey => T) := none
  onlyFastPath : Bool := true

namespace Bag

variable {T : Type*}

def insert (b : Bag T) (element : T) : Bag T × BagKey :=
  let key := b.nextKey
  let b := { b with nextKey := ⟨key.rawValue + 1⟩ }
  if b.key0 = none then ({ b with key0 := some key, value0 := some element }, key)
  else
    let b := { b with onlyFastPath := false }
    match b.dictionary with
    | some dictionary => ({ b with dictionary := some (dictionary.insert key element) }, key)
    | none =>
      if b.pairs.length < arrayDictionaryMaxSize then
        ({ b with pairs := b.pairs ++ [⟨key, element⟩] }, key)
      else ({ b with dictionary := some (AList.singleton key element) }, key)

/-- The entries of the dictionary, in no particular order. -/
def dictionaryEntries (b : Bag T) : List (Entry T) :=
  (b.dictionary.map AList.entries).getD []

def count (b : Bag T) : ℕ :=
  (if b.value0.isSome then 1 else 0) + b.pairs.length + b.dictionaryEntries.length

def removeAll (b : Bag T) : Bag T :=
  { b with key0 := none, value0 := none, pairs := [], dictionary := b.dictionary.map fun _ => ∅ }

/-- The bag left, and the value removed if there was one; `none` is the trap of `_value0!`. -/
def removeKey (b : Bag T) (key : BagKey) : Option (Bag T × Option T) :=
  if b.key0 = some key then
    b.value0.map fun value => ({ b with key0 := none, value0 := none }, some value)
  else
    match b.dictionary.bind (·.lookup key) with
    | some existingObject =>
      some ({ b with dictionary := b.dictionary.map (·.erase key) }, some existingObject)
    | none =>
      match b.pairs.dlookup key with
      | some value => some ({ b with pairs := b.pairs.kerase key }, some value)
      | none => some (b, none)

/-- The values visited by `forEach`, where the dictionary enumerates `values`. -/
def forEach (b : Bag T) (values : List T) : List T :=
  if b.onlyFastPath then b.value0.toList
  else b.value0.toList ++ b.pairs.map Sigma.snd ++
    if 0 < b.dictionaryEntries.length then values else []

/-- The values visited by `dispatch` and by `disposeAll`. -/
def dispatch (b : Bag T) (values : List T) : List T :=
  b.value0.toList ++
    if b.onlyFastPath then []
    else b.pairs.map Sigma.snd ++ if b.dictionary.isSome then values else []

/-- An order in which the dictionary can enumerate its values. -/
def Enumerates (b : Bag T) (values : List T) : Prop :=
  values.Perm (b.dictionaryEntries.map Sigma.snd)

/-! ### The three stores as one -/

/-- The entry of the slot. -/
def slot (b : Bag T) : List (Entry T) :=
  match b.key0, b.value0 with
  | some key, some value => [⟨key, value⟩]
  | _, _ => []

def entries (b : Bag T) : List (Entry T) := b.slot ++ b.pairs ++ b.dictionaryEntries

/-- What holds of a bag into which `issued` elements have been inserted. -/
structure WellFormed (b : Bag T) (issued : ℕ) : Prop where
  nextKey : b.nextKey = .ofNat issued
  slot : b.key0.isSome = b.value0.isSome
  fastPath : b.onlyFastPath = true → b.pairs = [] ∧ b.dictionary = none
  nodup : b.entries.NodupKeys
  issued : ∀ key ∈ b.entries.keys, ∃ n < issued, key = .ofNat n

theorem ofNat_injOn {m n : ℕ} (hm : m < UInt64.size) (hn : n < UInt64.size)
    (h : BagKey.ofNat m = .ofNat n) : m = n := by
  have hraw : (UInt64.ofNat m).toNat = (UInt64.ofNat n).toNat :=
    congrArg UInt64.toNat (BagKey.mk.inj h)
  rwa [UInt64.toNat_ofNat_of_lt' hm, UInt64.toNat_ofNat_of_lt' hn] at hraw

theorem ofNat_succ (n : ℕ) : (⟨(BagKey.ofNat n).rawValue + 1⟩ : BagKey) = .ofNat (n + 1) := by
  simp [BagKey.ofNat]

/-- Inserting adds one entry, under the next key. -/
theorem entries_insert {b : Bag T} {issued : ℕ} (hb : b.WellFormed issued)
    (hfresh : b.nextKey ∉ b.entries.keys) (element : T) :
    (b.insert element).2 = b.nextKey ∧
      (b.insert element).1.entries.Perm (⟨b.nextKey, element⟩ :: b.entries) := by
  unfold insert
  by_cases hkey : b.key0 = none
  · have hvalue : b.value0 = none := by simpa [hkey] using hb.slot
    simp [hkey, entries, slot, hvalue, dictionaryEntries]
  · simp only [if_neg hkey]
    cases hdictionary : b.dictionary with
    | some dictionary =>
      have hnew : b.nextKey ∉ dictionary := by
        intro hmem
        refine hfresh ?_
        simp only [entries, dictionaryEntries, hdictionary, List.keys_append, List.mem_append]
        exact .inr hmem
      refine ⟨rfl, ?_⟩
      simp only [entries, slot, dictionaryEntries, hdictionary, Option.map_some, Option.getD_some,
        AList.entries_insert_of_notMem hnew]
      exact List.perm_middle
    | none =>
      by_cases hroom : b.pairs.length < arrayDictionaryMaxSize
      · simp only [if_pos hroom]
        refine ⟨trivial, ?_⟩
        simp only [entries, slot, dictionaryEntries, hdictionary, Option.map_none, Option.getD_none,
          List.append_nil, ← List.append_assoc]
        exact List.perm_append_singleton _ _
      · simp only [if_neg hroom]
        refine ⟨trivial, ?_⟩
        simp only [entries, slot, dictionaryEntries, hdictionary, Option.map_none, Option.getD_none,
          List.append_nil, Option.map_some, Option.getD_some, AList.singleton_entries]
        exact List.perm_append_singleton _ _

/-- As long as the counter has not come round, the next key is a new one. -/
theorem nextKey_not_mem {b : Bag T} {issued : ℕ} (hb : b.WellFormed issued)
    (hissued : issued < UInt64.size) : b.nextKey ∉ b.entries.keys := by
  intro hmem
  obtain ⟨n, hn, hkey⟩ := hb.issued _ hmem
  rw [hb.nextKey] at hkey
  have heq : issued = n := ofNat_injOn hissued (by omega) hkey
  omega

/-- The fields that an insertion sets aside from the stores. -/
theorem insert_frame {b : Bag T} {issued : ℕ} (hb : b.WellFormed issued) (element : T) :
    (b.insert element).1.nextKey = .ofNat (issued + 1) ∧
      (b.insert element).1.key0.isSome = (b.insert element).1.value0.isSome ∧
      ((b.insert element).1.onlyFastPath = true →
        (b.insert element).1.pairs = [] ∧ (b.insert element).1.dictionary = none) := by
  have hnext : (⟨b.nextKey.rawValue + 1⟩ : BagKey) = .ofNat (issued + 1) := by
    rw [hb.nextKey, ofNat_succ]
  unfold insert
  by_cases hkey : b.key0 = none
  · simp only [if_pos hkey]
    exact ⟨hnext, rfl, hb.fastPath⟩
  · simp only [if_neg hkey]
    cases b.dictionary with
    | some dictionary => exact ⟨hnext, hb.slot, fun h => absurd h Bool.false_ne_true⟩
    | none =>
      simp only
      split
      · exact ⟨hnext, hb.slot, fun h => absurd h Bool.false_ne_true⟩
      · exact ⟨hnext, hb.slot, fun h => absurd h Bool.false_ne_true⟩

theorem wellFormed_insert {b : Bag T} {issued : ℕ} (hb : b.WellFormed issued)
    (hissued : issued < UInt64.size) (element : T) :
    (b.insert element).1.WellFormed (issued + 1) := by
  have hfresh := nextKey_not_mem hb hissued
  obtain ⟨-, hperm⟩ := entries_insert hb hfresh element
  obtain ⟨hnext, hslot, hfast⟩ := insert_frame hb element
  refine ⟨hnext, hslot, hfast, ?_, ?_⟩
  · rw [List.perm_nodupKeys hperm, List.nodupKeys_cons]
    exact ⟨hfresh, hb.nodup⟩
  · intro key hkey
    have hkeys := (hperm.map Sigma.fst).mem_iff.mp hkey
    rcases List.mem_cons.mp hkeys with rfl | hold
    · exact ⟨issued, Nat.lt_succ_self issued, hb.nextKey⟩
    · obtain ⟨n, hn, hkey⟩ := hb.issued key hold
      exact ⟨n, Nat.lt_succ_of_lt hn, hkey⟩

/-- A bag that lost an entry is still well formed, if its fields agree. -/
theorem wellFormed_of_kerase {b c : Bag T} {issued : ℕ} {key : BagKey} (hb : b.WellFormed issued)
    (hentries : c.entries = b.entries.kerase key) (hnext : c.nextKey = b.nextKey)
    (hslot : c.key0.isSome = c.value0.isSome)
    (hfast : c.onlyFastPath = true → c.pairs = [] ∧ c.dictionary = none) :
    c.WellFormed issued where
  nextKey := hnext.trans hb.nextKey
  slot := hslot
  fastPath := hfast
  nodup := by
    rw [hentries]
    exact hb.nodup.kerase key
  issued := by
    rw [hentries]
    exact fun k hk => hb.issued k (List.kerase_keys_subset key b.entries hk)

theorem not_mem_slot {b : Bag T} {key : BagKey} (h : b.key0 ≠ some key) : key ∉ b.slot.keys := by
  unfold slot
  split
  · next k value hkey hvalue =>
    have hne : key ≠ k := fun heq => h (by rw [hkey, heq])
    simpa using hne
  · simp

/-- The removal from the slot. -/
theorem kerase_slot {b : Bag T} {key : BagKey} {value : T} (hkey : b.key0 = some key)
    (hvalue : b.value0 = some value) :
    b.entries.dlookup key = some value ∧
      entries { b with key0 := none, value0 := none } = b.entries.kerase key := by
  have hentries : b.entries = ⟨key, value⟩ :: (b.pairs ++ b.dictionaryEntries) := by
    simp [entries, slot, hkey, hvalue]
  rw [hentries]
  refine ⟨List.dlookup_cons_eq _ _ _, ?_⟩
  exact (List.kerase_cons_eq (s := (⟨key, value⟩ : Entry T)) rfl).symm

/-- The removal from the dictionary; the keys of the three stores are distinct. -/
theorem kerase_dictionary {b : Bag T} {key : BagKey} {value : T}
    {dictionary : AList fun _ : BagKey => T} (hnodup : b.entries.NodupKeys)
    (hdictionary : b.dictionary = some dictionary) (hvalue : dictionary.lookup key = some value) :
    b.entries.dlookup key = some value ∧
      entries { b with dictionary := some (dictionary.erase key) } = b.entries.kerase key := by
  have hmem : key ∈ dictionary.entries.keys :=
    List.dlookup_isSome.mp (Option.isSome_iff_exists.mpr ⟨value, hvalue⟩)
  have hstored : b.dictionaryEntries = dictionary.entries := by
    simp [dictionaryEntries, hdictionary]
  have hothers : key ∉ (b.slot ++ b.pairs).keys := by
    have hkeys : (b.slot ++ b.pairs ++ dictionary.entries).keys.Nodup := hstored ▸ hnodup
    rw [List.keys_append] at hkeys
    exact fun hin => List.disjoint_of_nodup_append hkeys hin hmem
  unfold entries
  rw [hstored, List.dlookup_append, List.dlookup_eq_none.mpr hothers,
    List.kerase_append_right hothers]
  exact ⟨hvalue, rfl⟩

/-- The removal from the array. -/
theorem kerase_pairs {b : Bag T} {key : BagKey} {value : T} (hslot : key ∉ b.slot.keys)
    (hvalue : b.pairs.dlookup key = some value) :
    b.entries.dlookup key = some value ∧
      entries { b with pairs := b.pairs.kerase key } = b.entries.kerase key := by
  have hmem : key ∈ b.pairs.keys :=
    List.dlookup_isSome.mp (Option.isSome_iff_exists.mpr ⟨value, hvalue⟩)
  have hin : key ∈ (b.slot ++ b.pairs).keys := by
    rw [List.keys_append]
    exact List.mem_append_right _ hmem
  unfold entries
  rw [List.kerase_append_left hin, List.kerase_append_right hslot, List.append_assoc,
    List.dlookup_append, List.dlookup_eq_none.mpr hslot, List.dlookup_append, hvalue]
  exact ⟨rfl, rfl⟩

/-- Removing does what erasing does in the one map, and never traps. -/
theorem removeKey_eq {b : Bag T} {issued : ℕ} (hb : b.WellFormed issued) (key : BagKey) :
    ∃ c, b.removeKey key = some (c, b.entries.dlookup key) ∧
      c.entries = b.entries.kerase key ∧ c.WellFormed issued := by
  unfold removeKey
  by_cases hkey : b.key0 = some key
  · obtain ⟨value, hvalue⟩ : ∃ value, b.value0 = some value := by
      rw [← Option.isSome_iff_exists, ← hb.slot, hkey]
      rfl
    obtain ⟨hlookup, herased⟩ := kerase_slot hkey hvalue
    rw [if_pos hkey, hvalue, hlookup]
    exact ⟨_, rfl, herased, wellFormed_of_kerase hb herased rfl rfl hb.fastPath⟩
  · rw [if_neg hkey]
    have hslot := not_mem_slot hkey
    cases hobject : b.dictionary.bind (·.lookup key) with
    | some existingObject =>
      obtain ⟨dictionary, hdictionary, hvalue⟩ := Option.bind_eq_some_iff.mp hobject
      obtain ⟨hlookup, herased⟩ := kerase_dictionary hb.nodup hdictionary hvalue
      rw [hdictionary, Option.map_some, hlookup]
      refine ⟨_, rfl, herased, wellFormed_of_kerase hb herased rfl hb.slot fun hfast => ?_⟩
      simp [(hb.fastPath hfast).2] at hdictionary
    | none =>
      cases hpair : b.pairs.dlookup key with
      | some value =>
        obtain ⟨hlookup, herased⟩ := kerase_pairs hslot hpair
        rw [hlookup]
        refine ⟨_, rfl, herased, wellFormed_of_kerase hb herased rfl hb.slot fun hfast => ?_⟩
        simp [(hb.fastPath hfast).1] at hpair
      | none =>
        have hdictionary : key ∉ b.dictionaryEntries.keys := by
          unfold dictionaryEntries
          cases hd : b.dictionary with
          | none => simp
          | some dictionary =>
            rw [hd, Option.bind_some] at hobject
            exact List.dlookup_eq_none.mp hobject
        have hmem : key ∉ b.entries.keys := by
          unfold entries
          rw [List.keys_append, List.keys_append, List.mem_append, List.mem_append]
          rintro ((h | h) | h)
          · exact hslot h
          · exact List.dlookup_eq_none.mp hpair h
          · exact hdictionary h
        rw [List.dlookup_eq_none.mpr hmem]
        exact ⟨b, rfl, (List.kerase_of_notMem_keys hmem).symm, hb⟩

theorem entries_removeAll (b : Bag T) : b.removeAll.entries = [] := by
  unfold entries slot dictionaryEntries removeAll
  cases b.dictionary <;> rfl

theorem wellFormed_removeAll {b : Bag T} {issued : ℕ} (hb : b.WellFormed issued) :
    b.removeAll.WellFormed issued where
  nextKey := hb.nextKey
  slot := rfl
  fastPath h := ⟨rfl, by simp [removeAll, (hb.fastPath h).2]⟩
  nodup := by
    rw [entries_removeAll]
    exact List.nodupKeys_nil
  issued := by simp [entries_removeAll]

theorem wellFormed_empty : WellFormed ({} : Bag T) 0 where
  nextKey := rfl
  slot := rfl
  fastPath _ := ⟨rfl, rfl⟩
  nodup := List.nodupKeys_nil
  issued := by simp [entries, slot, dictionaryEntries]

/-- The value of the slot, if the slot is filled. -/
theorem values_slot {b : Bag T} (h : b.key0.isSome = b.value0.isSome) :
    b.slot.map Sigma.snd = b.value0.toList := by
  unfold slot
  cases hkey : b.key0 <;> cases hvalue : b.value0 <;> simp_all

theorem count_eq {b : Bag T} {issued : ℕ} (hb : b.WellFormed issued) :
    b.count = b.entries.length := by
  have hslot : b.slot.length = if b.value0.isSome then 1 else 0 := by
    rw [← List.length_map Sigma.snd, values_slot hb.slot]
    cases b.value0 <;> rfl
  rw [count, entries, List.length_append, List.length_append, hslot]

/-- A dispatch visits each value of the bag once, on the fast path as well. -/
theorem dispatch_perm {b : Bag T} {issued : ℕ} (hb : b.WellFormed issued) {values : List T}
    (hvalues : b.Enumerates values) : (b.dispatch values).Perm (b.entries.map Sigma.snd) := by
  unfold dispatch entries
  rw [List.map_append, List.map_append, values_slot hb.slot, List.append_assoc]
  refine List.Perm.append_left _ ?_
  by_cases hfast : b.onlyFastPath
  · obtain ⟨hpairs, hdictionary⟩ := hb.fastPath hfast
    simp [hfast, hpairs, dictionaryEntries, hdictionary]
  · rw [if_neg hfast]
    refine List.Perm.append_left _ ?_
    cases hdictionary : b.dictionary with
    | none => simp [dictionaryEntries, hdictionary]
    | some dictionary => exact hvalues

/-- `forEach` visits what `dispatch` does. -/
theorem forEach_eq_dispatch {b : Bag T} {values : List T} (hvalues : b.Enumerates values) :
    b.forEach values = b.dispatch values := by
  unfold forEach dispatch
  by_cases hfast : b.onlyFastPath
  · simp [hfast]
  · rw [if_neg hfast, if_neg hfast, List.append_assoc]
    congr 2
    by_cases hempty : 0 < b.dictionaryEntries.length
    · have hsome : b.dictionary.isSome := by
        cases hdictionary : b.dictionary with
        | none => simp [dictionaryEntries, hdictionary] at hempty
        | some dictionary => rfl
      rw [if_pos hempty, if_pos hsome]
    · have hnone : values = [] := by
        have hlength := hvalues.length_eq
        rw [List.length_map] at hlength
        exact List.eq_nil_of_length_eq_zero (by omega)
      simp [hnone]

end Bag

/-! ### Runs -/

inductive BagEvent (T : Type*) where
  | insert (element : T)
  | removeKey (key : BagKey)
  | removeAll

/-- A run stops where `removeKey` would trap. -/
def bag (T : Type*) : System (Bag T) (BagEvent T) where
  init := {}
  step b
    | .insert element => some (b.insert element).1
    | .removeKey key => (b.removeKey key).map Prod.fst
    | .removeAll => some b.removeAll

/-- What a bag is for: the values inserted so far and not removed, by the keys they were
given. -/
structure Registry (T : Type*) where
  issued : ℕ := 0
  live : AList (fun _ : BagKey => T) := ∅

def registry (T : Type*) : System (Registry T) (BagEvent T) where
  init := {}
  step r
    | .insert element => some { r with
        issued := r.issued + 1
        live := r.live.insert (.ofNat r.issued) element }
    | .removeKey key => some { r with live := r.live.erase key }
    | .removeAll => some { r with live := ∅ }

variable {T : Type*}

/-- The elements inserted in a run. -/
def insertions : List (BagEvent T) → ℕ
  | [] => 0
  | .insert _ :: es => insertions es + 1
  | _ :: es => insertions es

theorem insertions_append (es fs : List (BagEvent T)) :
    insertions (es ++ fs) = insertions es + insertions fs := by
  induction es with
  | nil => simp [insertions]
  | cons e es ih =>
    cases e <;> simp only [List.cons_append, insertions, ih]
    omega

/-- The bag is well formed and holds the entries of the registry. -/
structure Stores (b : Bag T) (r : Registry T) : Prop where
  wellFormed : b.WellFormed r.issued
  entries : b.entries.Perm r.live.entries

theorem Stores.lookup {b : Bag T} {r : Registry T} (h : Stores b r) (key : BagKey) :
    b.entries.dlookup key = r.live.lookup key :=
  List.perm_dlookup key h.wellFormed.nodup h.entries

theorem stores_insert {b : Bag T} {r : Registry T} (h : Stores b r)
    (hissued : r.issued < UInt64.size) (element : T) :
    (b.insert element).2 = .ofNat r.issued ∧ .ofNat r.issued ∉ r.live ∧
      Stores (b.insert element).1
        { issued := r.issued + 1, live := r.live.insert (.ofNat r.issued) element } := by
  have hfresh := Bag.nextKey_not_mem h.wellFormed hissued
  obtain ⟨hkey, hperm⟩ := Bag.entries_insert h.wellFormed hfresh element
  have hnew : .ofNat r.issued ∉ r.live := by
    rw [AList.mem_keys, ← h.wellFormed.nextKey]
    exact fun hin => hfresh ((h.entries.map Sigma.fst).mem_iff.mpr hin)
  refine ⟨hkey.trans h.wellFormed.nextKey, hnew, ?_, ?_⟩
  · exact Bag.wellFormed_insert h.wellFormed hissued element
  · rw [AList.entries_insert_of_notMem hnew, ← h.wellFormed.nextKey]
    exact hperm.trans (h.entries.cons _)

theorem stores_removeKey {b : Bag T} {r : Registry T} (h : Stores b r) (key : BagKey) :
    ∃ c, b.removeKey key = some (c, r.live.lookup key) ∧
      Stores c { r with live := r.live.erase key } := by
  obtain ⟨c, hremove, hentries, hc⟩ := Bag.removeKey_eq h.wellFormed key
  rw [h.lookup key] at hremove
  refine ⟨c, hremove, hc, ?_⟩
  rw [hentries]
  exact h.entries.kerase h.wellFormed.nodup

theorem stores_removeAll {b : Bag T} {r : Registry T} (h : Stores b r) :
    Stores b.removeAll { r with live := ∅ } where
  wellFormed := Bag.wellFormed_removeAll h.wellFormed
  entries := by rw [Bag.entries_removeAll]; exact List.Perm.refl []

/-- A run with at most `UInt64.size` insertions never traps, and leads to the bag of the
registry that runs beside it. -/
theorem exists_stores (es : List (BagEvent T)) (hes : insertions es ≤ UInt64.size) :
    ∃ b r, (bag T).run es = some b ∧ (registry T).run es = some r ∧ r.issued = insertions es ∧
      Stores b r := by
  induction es using List.reverseRecOn with
  | nil => exact ⟨{}, {}, rfl, rfl, rfl, Bag.wellFormed_empty, List.Perm.refl []⟩
  | append_singleton es e ih =>
    rw [insertions_append] at hes
    obtain ⟨b, r, hb, hr, hissued, hstores⟩ := ih (by omega)
    cases e with
    | insert element =>
      have hroom : r.issued < UInt64.size := by
        simp only [insertions] at hes
        omega
      obtain ⟨-, -, hstores'⟩ := stores_insert hstores hroom element
      refine ⟨_, _, run_snoc.mpr ⟨b, hb, rfl⟩, run_snoc.mpr ⟨r, hr, rfl⟩, ?_, hstores'⟩
      rw [insertions_append, hissued]
      rfl
    | removeKey key =>
      obtain ⟨c, hremove, hstores'⟩ := stores_removeKey hstores key
      have hstep : (bag T).step b (.removeKey key) = some c := by
        show (b.removeKey key).map Prod.fst = some c
        rw [hremove]
        rfl
      refine ⟨c, _, run_snoc.mpr ⟨b, hb, hstep⟩, run_snoc.mpr ⟨r, hr, rfl⟩, ?_, hstores'⟩
      rw [insertions_append, hissued]
      rfl
    | removeAll =>
      refine ⟨_, _, run_snoc.mpr ⟨b, hb, rfl⟩, run_snoc.mpr ⟨r, hr, rfl⟩, ?_,
        stores_removeAll hstores⟩
      rw [insertions_append, hissued]
      rfl

/-- The bag refines the finite map. After any insertions, removals and clearings, with at
most `UInt64.size` insertions, no operation traps, `count` is the number of live values, a
removal gives back the live value of its key, and both ways of enumerating visit each live
value once in whatever order the dictionary has. While fewer than `UInt64.size` elements
have been inserted, an insertion returns a key that no live value has, and under which the
new value is live, and comes back, from then on. -/
theorem bagRefines (es : List (BagEvent T)) (hes : insertions es ≤ UInt64.size) :
    ∃ b r, (bag T).run es = some b ∧ (registry T).run es = some r ∧
      b.count = r.live.entries.length ∧
      (∀ key, ∃ c, b.removeKey key = some (c, r.live.lookup key)) ∧
      (∀ values, b.Enumerates values →
        (b.dispatch values).Perm (r.live.entries.map Sigma.snd) ∧
          b.forEach values = b.dispatch values) ∧
      (insertions es < UInt64.size → ∀ element, (b.insert element).2 ∉ r.live ∧
        (∃ r', (registry T).step r (.insert element) = some r' ∧
          r'.live = r.live.insert (b.insert element).2 element) ∧
        ∃ c, (b.insert element).1.removeKey (b.insert element).2 = some (c, some element)) := by
  obtain ⟨b, r, hb, hr, hissued, hstores⟩ := exists_stores es hes
  refine ⟨b, r, hb, hr, ?_, fun key => ?_, fun values hvalues => ⟨?_, ?_⟩, fun hroom element => ?_⟩
  · rw [Bag.count_eq hstores.wellFormed, hstores.entries.length_eq]
  · obtain ⟨c, hremove, -⟩ := stores_removeKey hstores key
    exact ⟨c, hremove⟩
  · exact (Bag.dispatch_perm hstores.wellFormed hvalues).trans (hstores.entries.map _)
  · exact Bag.forEach_eq_dispatch hvalues
  · obtain ⟨hkey, hnew, hinserted⟩ := stores_insert hstores (hissued ▸ hroom) element
    obtain ⟨c, hremove, -⟩ := stores_removeKey hinserted (.ofNat r.issued)
    rw [AList.lookup_insert] at hremove
    rw [hkey]
    exact ⟨hnew, ⟨_, rfl, rfl⟩, c, hremove⟩

/-- Two observers come, and the first one goes. -/
def twoObservers : List (BagEvent ℕ) := [.insert 7, .insert 8, .removeKey ⟨0⟩]

theorem bagRefines_twoObservers :
    ∃ b r, (bag ℕ).run twoObservers = some b ∧ (registry ℕ).run twoObservers = some r ∧
      b.count = r.live.entries.length ∧
      (∀ key, ∃ c, b.removeKey key = some (c, r.live.lookup key)) ∧
      (∀ values, b.Enumerates values →
        (b.dispatch values).Perm (r.live.entries.map Sigma.snd) ∧
          b.forEach values = b.dispatch values) ∧
      (insertions twoObservers < UInt64.size → ∀ element, (b.insert element).2 ∉ r.live ∧
        (∃ r', (registry ℕ).step r (.insert element) = some r' ∧
          r'.live = r.live.insert (b.insert element).2 element) ∧
        ∃ c, (b.insert element).1.removeKey (b.insert element).2 = some (c, some element)) :=
  bagRefines twoObservers (by decide)

end SewaConnect.Rx
