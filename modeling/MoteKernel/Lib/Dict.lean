import Mathlib.Data.List.Nodup
import MoteKernel.Lib.Canonical
import MoteKernel.Lib.Checked

/-!
# Insertion-ordered dictionaries

A dictionary is the list of its items, one for each key, in the order in which
the keys were first written. `push` is the `setdefault(key, []).append(value)`
idiom; a sequence of pushes groups the values by key and keeps their order.
-/

structure Dict (κ ν : Type) where
  items : List (κ × ν)
  distinct : (items.map Prod.fst).Nodup

namespace Dict

section Basic

variable {κ ν : Type}

def empty : Dict κ ν := ⟨[], List.nodup_nil⟩

def keys (d : Dict κ ν) : List κ := d.items.map Prod.fst

def values (d : Dict κ ν) : List ν := d.items.map Prod.snd

@[ext] theorem ext_items {d e : Dict κ ν} (same : d.items = e.items) : d = e := by
  cases d
  cases e
  cases same
  rfl

variable [DecidableEq κ]

instance [DecidableEq ν] : DecidableEq (Dict κ ν) := fun d e =>
  decidable_of_iff (d.items = e.items) ⟨ext_items, fun same => same ▸ rfl⟩

/-- `d.get(key)`. -/
def get? (d : Dict κ ν) (key : κ) : Option ν :=
  (d.items.find? (fun item => item.1 = key)).map Prod.snd

/-- `d[key]` for a key that is present. The `KeyError` of a missing key is the default value;
the tables of the model have an item for every key that is looked up this way. -/
def getItem [Inhabited ν] (d : Dict κ ν) (key : κ) : ν := (d.get? key).getD default

theorem get?_eq_some (d : Dict κ ν) (key : κ) (value : ν) :
    d.get? key = some value ↔ (key, value) ∈ d.items := by
  obtain ⟨items, distinct⟩ := d
  simp only [get?]
  induction items with
  | nil => simp
  | cons head rest ih =>
      obtain ⟨first, stored⟩ := head
      simp only [List.map_cons, List.nodup_cons] at distinct
      by_cases same : first = key
      · subst same
        have absent : (first, value) ∉ rest := fun member =>
          distinct.1 (List.mem_map.mpr ⟨_, member, rfl⟩)
        simp [absent, eq_comm]
      · have different : ¬ key = first := fun h => same h.symm
        simp [same, different, ih distinct.2]

theorem get?_eq_none (d : Dict κ ν) (key : κ) : d.get? key = none ↔ key ∉ d.keys := by
  simp only [get?, Option.map_eq_none_iff, List.find?_eq_none, keys, List.mem_map, not_exists,
    not_and, decide_eq_true_eq]

theorem mem_keys (d : Dict κ ν) (key : κ) : key ∈ d.keys ↔ ∃ value, d.get? key = some value := by
  rw [← Option.isSome_iff_exists, Option.isSome_iff_ne_none, Ne, get?_eq_none, not_not]

/-- `d[key] = value`. -/
def set (d : Dict κ ν) (key : κ) (value : ν) : Dict κ ν :=
  if present : key ∈ d.keys then
    ⟨d.items.map (fun item => if item.1 = key then (key, value) else item), by
      have keep : (d.items.map (fun item => if item.1 = key then (key, value) else item)).map
          Prod.fst = d.items.map Prod.fst := by
        rw [List.map_map]
        refine List.map_congr_left (fun item _ => ?_)
        simp only [Function.comp_apply]
        split <;> simp_all
      rw [keep]
      exact d.distinct⟩
  else
    ⟨d.items ++ [(key, value)], by
      rw [List.map_append]
      refine List.nodup_append.mpr ⟨d.distinct, List.nodup_singleton _, ?_⟩
      intro a member b single same
      have here : b = key := by simpa using single
      exact present (here ▸ same ▸ member)⟩

theorem mem_items_set (d : Dict κ ν) (key k : κ) (value v : ν) :
    (k, v) ∈ (d.set key value).items ↔ (k = key ∧ v = value) ∨ (k ≠ key ∧ (k, v) ∈ d.items) := by
  unfold set
  split
  · rename_i present
    simp only [List.mem_map]
    constructor
    · rintro ⟨item, member, changed⟩
      split at changed
      · cases changed
        exact .inl ⟨rfl, rfl⟩
      · rename_i other
        subst changed
        exact .inr ⟨other, member⟩
    · rintro (⟨rfl, rfl⟩ | ⟨other, member⟩)
      · obtain ⟨⟨first, old⟩, member, same⟩ := List.mem_map.mp present
        exact ⟨(first, old), member, by simp_all⟩
      · exact ⟨(k, v), member, by simp [other]⟩
  · rename_i absent
    simp only [List.mem_append, List.mem_singleton, Prod.mk.injEq]
    constructor
    · rintro (member | ⟨rfl, rfl⟩)
      · refine .inr ⟨fun same => absent ?_, member⟩
        exact List.mem_map.mpr ⟨(k, v), member, same⟩
      · exact .inl ⟨rfl, rfl⟩
    · rintro (⟨rfl, rfl⟩ | ⟨-, member⟩)
      · exact .inr ⟨rfl, rfl⟩
      · exact .inl member

theorem get?_set (d : Dict κ ν) (key k : κ) (value : ν) :
    (d.set key value).get? k = if k = key then some value else d.get? k := by
  refine Option.ext (fun v => ?_)
  rw [get?_eq_some, mem_items_set]
  by_cases same : k = key
  · simp [same, eq_comm]
  · simp [same, get?_eq_some]

theorem mem_keys_set (d : Dict κ ν) (key k : κ) (value : ν) :
    k ∈ (d.set key value).keys ↔ k = key ∨ k ∈ d.keys := by
  rw [mem_keys, mem_keys]
  by_cases same : k = key
  · simp [get?_set, same]
  · simp [get?_set, same]

theorem items_set_of_not_mem (d : Dict κ ν) (key : κ) (value : ν) (absent : key ∉ d.keys) :
    (d.set key value).items = d.items ++ [(key, value)] := by
  rw [set, dif_neg absent]

theorem keys_set_of_mem (d : Dict κ ν) (key : κ) (value : ν) (present : key ∈ d.keys) :
    (d.set key value).keys = d.keys := by
  rw [set, dif_pos present]
  simp only [keys, List.map_map]
  refine List.map_congr_left (fun item _ => ?_)
  simp only [Function.comp_apply]
  split <;> simp_all

theorem getItem_set [Inhabited ν] (d : Dict κ ν) (key k : κ) (value : ν) :
    (d.set key value).getItem k = if k = key then value else d.getItem k := by
  rw [getItem, get?_set]
  split <;> rfl

/-- Two dictionaries with the same keys in the same order and the same values are equal. -/
theorem ext_getItem [Inhabited ν] {d e : Dict κ ν} (sameKeys : d.keys = e.keys)
    (sameValues : ∀ key ∈ d.keys, d.getItem key = e.getItem key) : d = e := by
  have listed : ∀ d : Dict κ ν, d.items = d.keys.map (fun key => (key, d.getItem key)) := by
    intro d
    rw [keys, List.map_map]
    symm
    refine (List.map_congr_left (fun item member => ?_)).trans (List.map_id _)
    have found := (get?_eq_some d item.1 item.2).mpr member
    simp only [Function.comp_apply, getItem, found, Option.getD_some, id]
  apply ext_items
  rw [listed d, listed e, ← sameKeys]
  refine List.map_congr_left (fun key member => ?_)
  rw [sameValues key member]

/-- `{key: value(key) for key in keys}`. -/
def build (keys : List κ) (value : κ → ν) : Dict κ ν :=
  ⟨keys.dedup.map (fun key => (key, value key)), by
    simpa [List.map_map, Function.comp_def] using keys.nodup_dedup⟩

@[simp] theorem get?_build (keys : List κ) (value : κ → ν) (key : κ) :
    (build keys value).get? key = if key ∈ keys then some (value key) else none := by
  refine Option.ext (fun v => ?_)
  rw [get?_eq_some]
  by_cases member : key ∈ keys <;> simp [build, member, eq_comm]

theorem getItem_build [Inhabited ν] {keys : List κ} {value : κ → ν} {key : κ}
    (known : key ∈ keys) : (build keys value).getItem key = value key := by
  rw [getItem, get?_build, if_pos known, Option.getD_some]

theorem keys_build {keys : List κ} (distinct : keys.Nodup) (value : κ → ν) :
    (build keys value).keys = keys := by
  simp [Dict.keys, build, distinct.dedup, Function.comp_def]

@[simp] theorem mem_keys_build (keys : List κ) (value : κ → ν) (key : κ) :
    key ∈ (build keys value).keys ↔ key ∈ keys := by
  rw [mem_keys]
  by_cases member : key ∈ keys <;> simp [member]

/-- `d == e`: the same keys with the same values, in any order. -/
def Same (d e : Dict κ ν) : Prop := ∀ key, d.get? key = e.get? key

instance [DecidableEq ν] (d e : Dict κ ν) : Decidable (Same d e) :=
  decidable_of_iff (∀ key ∈ d.keys ++ e.keys, d.get? key = e.get? key) (by
    constructor
    · intro same key
      by_cases member : key ∈ d.keys ++ e.keys
      · exact same key member
      · have absent : key ∉ d.keys ∧ key ∉ e.keys := by
          simpa [not_or] using member
        rw [(get?_eq_none d key).mpr absent.1, (get?_eq_none e key).mpr absent.2]
    · exact fun same key _ => same key)

theorem Same.mem_keys {d e : Dict κ ν} (same : d.Same e) (key : κ) :
    key ∈ d.keys ↔ key ∈ e.keys := by
  rw [Dict.mem_keys, Dict.mem_keys, same key]

theorem Same.items_eq_nil {d e : Dict κ ν} (same : d.Same e) : d.items = [] ↔ e.items = [] := by
  have none : ∀ d : Dict κ ν, d.items = [] ↔ ∀ key, key ∉ d.keys := by
    intro d
    rw [Dict.keys, ← List.eq_nil_iff_forall_not_mem, List.map_eq_nil_iff]
  rw [none d, none e]
  exact forall_congr' (fun key => not_congr (Same.mem_keys same key))

end Basic

section Push

variable {κ ν : Type} [DecidableEq κ]

/-- `d.setdefault(key, []).append(value)`. -/
def push (d : Dict κ (List ν)) (key : κ) (value : ν) : Dict κ (List ν) :=
  d.set key ((d.get? key).getD [] ++ [value])

/-- The pushes of a sequence of pairs, in order. -/
def pushAll (d : Dict κ (List ν)) (pairs : List (κ × ν)) : Dict κ (List ν) :=
  pairs.foldl (fun d pair => d.push pair.1 pair.2) d

/-- The values a sequence of pairs carries for one key. -/
def valuesAt (pairs : List (κ × ν)) (key : κ) : List ν :=
  (pairs.filter (fun pair => pair.1 = key)).map Prod.snd

theorem mem_valuesAt (pairs : List (κ × ν)) (key : κ) (value : ν) :
    value ∈ valuesAt pairs key ↔ (key, value) ∈ pairs := by
  simp only [valuesAt, List.mem_map, List.mem_filter, decide_eq_true_eq]
  constructor
  · rintro ⟨⟨k, v⟩, ⟨member, rfl⟩, rfl⟩
    exact member
  · intro member
    exact ⟨(key, value), ⟨member, rfl⟩, rfl⟩

theorem valuesAt_append (pairs more : List (κ × ν)) (key : κ) :
    valuesAt (pairs ++ more) key = valuesAt pairs key ++ valuesAt more key := by
  simp [valuesAt]

theorem getD_push (d : Dict κ (List ν)) (key k : κ) (value : ν) :
    ((d.push key value).get? k).getD [] =
      (d.get? k).getD [] ++ valuesAt [(key, value)] k := by
  by_cases same : k = key
  · subst same
    simp [push, get?_set, valuesAt]
  · have different : ¬ key = k := fun h => same h.symm
    simp [push, get?_set, valuesAt, same, different]

theorem mem_keys_push (d : Dict κ (List ν)) (key k : κ) (value : ν) :
    k ∈ (d.push key value).keys ↔ k = key ∨ k ∈ d.keys :=
  mem_keys_set d key k _

theorem getD_pushAll (d : Dict κ (List ν)) (pairs : List (κ × ν)) (k : κ) :
    ((d.pushAll pairs).get? k).getD [] = (d.get? k).getD [] ++ valuesAt pairs k := by
  induction pairs generalizing d with
  | nil => simp [pushAll, valuesAt]
  | cons pair pairs ih =>
      have step := ih (d.push pair.1 pair.2)
      simp only [pushAll, List.foldl_cons] at step ⊢
      rw [step, getD_push, List.append_assoc, ← valuesAt_append]
      rfl

theorem mem_keys_pushAll (d : Dict κ (List ν)) (pairs : List (κ × ν)) (k : κ) :
    k ∈ (d.pushAll pairs).keys ↔ k ∈ d.keys ∨ k ∈ pairs.map Prod.fst := by
  induction pairs generalizing d with
  | nil => simp [pushAll]
  | cons pair pairs ih =>
      have step := ih (d.push pair.1 pair.2)
      simp only [pushAll, List.foldl_cons] at step ⊢
      rw [step, mem_keys_push, List.map_cons, List.mem_cons]
      tauto

/-- The item of a grouped key: its values, in order. -/
theorem mem_items_pushAll (pairs : List (κ × ν)) (key : κ) (values : List ν) :
    (key, values) ∈ ((empty : Dict κ (List ν)).pushAll pairs).items ↔
      key ∈ pairs.map Prod.fst ∧ values = valuesAt pairs key := by
  have grouped : (((empty : Dict κ (List ν)).pushAll pairs).get? key).getD [] =
      valuesAt pairs key := getD_pushAll empty pairs key
  have present : key ∈ ((empty : Dict κ (List ν)).pushAll pairs).keys ↔
      key ∈ pairs.map Prod.fst := by
    rw [mem_keys_pushAll]
    simp [empty, keys]
  rw [← get?_eq_some]
  constructor
  · intro found
    rw [found] at grouped
    exact ⟨present.mp ((mem_keys _ key).mpr ⟨values, found⟩), grouped⟩
  · rintro ⟨member, rfl⟩
    obtain ⟨stored, found⟩ := (mem_keys _ key).mp (present.mpr member)
    rw [found] at grouped ⊢
    exact congrArg some grouped

theorem pushAll_append (d : Dict κ (List ν)) (pairs more : List (κ × ν)) :
    d.pushAll (pairs ++ more) = (d.pushAll pairs).pushAll more := by
  simp [pushAll]

/-- With one pair for each key, grouping the pairs only wraps their values. -/
theorem items_pushAll_of_nodup (d : Dict κ (List ν)) (pairs : List (κ × ν))
    (once : (d.keys ++ pairs.map Prod.fst).Nodup) :
    (d.pushAll pairs).items = d.items ++ pairs.map (fun pair => (pair.1, [pair.2])) := by
  induction pairs generalizing d with
  | nil => simp [pushAll]
  | cons pair pairs ih =>
      have apart := List.nodup_append.mp once
      have absent : pair.1 ∉ d.keys := by
        intro present
        exact apart.2.2 pair.1 present pair.1 (by simp) rfl
      have pushed : (d.push pair.1 pair.2).items = d.items ++ [(pair.1, [pair.2])] := by
        rw [push, (get?_eq_none d pair.1).mpr absent, items_set_of_not_mem d _ _ absent]
        rfl
      have keys : (d.push pair.1 pair.2).keys = d.keys ++ [pair.1] := by
        rw [Dict.keys, pushed, List.map_append]
        rfl
      have rest := ih (d.push pair.1 pair.2) (by rw [keys]; simpa using once)
      rw [pushed] at rest
      simpa [pushAll] using rest

/-- Pushing the pairs in order, no value meets one of the same class under its key. -/
def Fresh (same : ν → ν → Prop) (d : Dict κ (List ν)) (pairs : List (κ × ν)) : Prop :=
  (∀ pair ∈ pairs, ∀ item ∈ (d.get? pair.1).getD [], ¬ same item pair.2) ∧
  pairs.Pairwise (fun p q => p.1 = q.1 → ¬ same p.2 q.2)

theorem fresh_append (same : ν → ν → Prop) (d : Dict κ (List ν)) (pairs more : List (κ × ν)) :
    Fresh same d (pairs ++ more) ↔ Fresh same d pairs ∧ Fresh same (d.pushAll pairs) more := by
  simp only [Fresh, List.mem_append, List.pairwise_append, getD_pushAll, or_imp, forall_and]
  constructor
  · rintro ⟨⟨first, rest⟩, ordered, orderedMore, across⟩
    refine ⟨⟨first, ordered⟩, ⟨rest, ?_⟩, orderedMore⟩
    intro pair member item inside
    exact across (pair.1, item) ((mem_valuesAt pairs pair.1 item).mp inside) pair member rfl
  · rintro ⟨⟨first, ordered⟩, ⟨rest, across⟩, orderedMore⟩
    refine ⟨⟨first, rest⟩, ordered, orderedMore, ?_⟩
    intro earlier earlierMember pair member sameKey
    exact across pair member earlier.2
      ((mem_valuesAt pairs pair.1 earlier.2).mpr (by rw [← sameKey]; exact earlierMember))

/-- A sequence of checked pushes succeeds exactly when the pairs are fresh. -/
theorem foldlM_push_eq_ok {ε α : Type} {same : ν → ν → Prop} {valid : α → Prop}
    {pairOf : α → κ × ν} {step : Dict κ (List ν) → α → Except ε (Dict κ (List ν))}
    (spec : ∀ d x e, step d x = .ok e ↔ valid x ∧
      (∀ item ∈ (d.get? (pairOf x).1).getD [], ¬ same item (pairOf x).2) ∧
      e = d.push (pairOf x).1 (pairOf x).2)
    (d e : Dict κ (List ν)) (xs : List α) :
    xs.foldlM step d = .ok e ↔ (∀ x ∈ xs, valid x) ∧ Fresh same d (xs.map pairOf) ∧
      e = d.pushAll (xs.map pairOf) := by
  induction xs generalizing d with
  | nil => simp [Fresh, pushAll, eq_comm]
  | cons x xs ih =>
      have split := fresh_append same d [pairOf x] (xs.map pairOf)
      have grouped := pushAll_append d [pairOf x] (xs.map pairOf)
      have single : d.pushAll [pairOf x] = d.push (pairOf x).1 (pairOf x).2 := rfl
      rw [single, List.singleton_append] at split grouped
      simp only [List.foldlM_cons, Checked.bind_eq_ok, spec, ih, List.map_cons, split, grouped,
        List.forall_mem_cons]
      simp only [Fresh, List.mem_singleton, forall_eq, List.pairwise_singleton, and_true]
      constructor
      · rintro ⟨_, ⟨validX, apart, rfl⟩, validXs, fresh, rfl⟩
        exact ⟨⟨validX, validXs⟩, ⟨apart, fresh⟩, rfl⟩
      · rintro ⟨⟨validX, validXs⟩, ⟨apart, fresh⟩, rfl⟩
        exact ⟨_, ⟨validX, apart, rfl⟩, validXs, fresh, rfl⟩

end Push

section Frozen

variable {κ ν : Type} [LinearOrder κ]

/-- `frozen_map(d)`: the items in key order. -/
def frozen (d : Dict κ ν) : Dict κ ν :=
  ⟨d.items.insertionSort (fun a b => a.1 ≤ b.1), by
    have perm := (List.perm_insertionSort (fun a b : κ × ν => a.1 ≤ b.1) d.items).map Prod.fst
    exact perm.nodup_iff.mpr d.distinct⟩

theorem mem_items_frozen (d : Dict κ ν) (item : κ × ν) : item ∈ d.frozen.items ↔ item ∈ d.items :=
  (List.perm_insertionSort _ d.items).mem_iff

@[simp] theorem get?_frozen (d : Dict κ ν) (key : κ) : d.frozen.get? key = d.get? key := by
  refine Option.ext (fun v => ?_)
  rw [get?_eq_some, get?_eq_some, mem_items_frozen]

end Frozen

end Dict
