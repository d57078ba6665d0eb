import Mathlib.Data.List.Nodup

/-!
# Rectangles

A rectangle restricts some dimensions to a list of values each, and leaves the
others free. A relation `holds` between dimensions and values meets a rectangle
when every restricted dimension holds one of its values. Rectangles are ordered
by refinement; an intersection is the coarsest rectangle that refines its parts,
and a bounding rectangle keeps the dimensions that all its parts restrict. When
the parts differ in at most one of the kept dimensions, what meets the bounding
rectangle meets the kept dimensions of one of the parts.
-/

/-- The restricted dimensions with their values. -/
abbrev Rectangle (κ ν : Type) := List (κ × List ν)

namespace Rectangle

variable {κ ν : Type} {holds : κ → ν → Prop} {a b c part whole : Rectangle κ ν}
  {parts : List (Rectangle κ ν)}

/-- Every restricted dimension is listed once. -/
def Distinct (rectangle : Rectangle κ ν) : Prop := (rectangle.map Prod.fst).Nodup

/-- The first rectangle restricts every dimension of the second at least as much. -/
def Refines (finer coarser : Rectangle κ ν) : Prop :=
  ∀ side ∈ coarser, ∃ values, (side.1, values) ∈ finer ∧ values ⊆ side.2

/-- Every restricted dimension holds one of its values. -/
def Meets (holds : κ → ν → Prop) (rectangle : Rectangle κ ν) : Prop :=
  ∀ side ∈ rectangle, ∃ value ∈ side.2, holds side.1 value

theorem Distinct.unique (distinct : Distinct a) {key : κ} {values values' : List ν}
    (first : (key, values) ∈ a) (second : (key, values') ∈ a) : values = values' :=
  (Prod.mk.inj (List.inj_on_of_nodup_map distinct first second rfl)).2

theorem Refines.refl (rectangle : Rectangle κ ν) : Refines rectangle rectangle :=
  fun side member => ⟨side.2, member, fun _ inside => inside⟩

theorem Refines.trans (first : Refines a b) (second : Refines b c) : Refines a c := by
  intro side member
  obtain ⟨middle, listed, narrower⟩ := second side member
  obtain ⟨values, inside, narrowest⟩ := first _ listed
  exact ⟨values, inside, fun _ value => narrower (narrowest value)⟩

/-- The two rectangles restrict the same dimensions to the same values. -/
def Equivalent (a b : Rectangle κ ν) : Prop := Refines a b ∧ Refines b a

theorem Equivalent.refl (rectangle : Rectangle κ ν) : Equivalent rectangle rectangle :=
  ⟨.refl rectangle, .refl rectangle⟩

theorem Meets.coarser (refines : Refines a b) (meets : Meets holds a) : Meets holds b := by
  intro side member
  obtain ⟨values, listed, narrower⟩ := refines side member
  obtain ⟨value, inside, here⟩ := meets _ listed
  exact ⟨value, narrower inside, here⟩

/-! ## Intersections -/

/-- The rectangle of the values that all the parts allow, none of them empty. -/
structure Merged (parts : List (Rectangle κ ν)) (whole : Rectangle κ ν) : Prop where
  distinct : Distinct whole
  covers : ∀ part ∈ parts, ∀ side ∈ part, ∃ values, (side.1, values) ∈ whole
  sides : ∀ side ∈ whole, side.2 ≠ [] ∧ (∃ part ∈ parts, ∃ values, (side.1, values) ∈ part) ∧
    ∀ value, value ∈ side.2 ↔ ∀ part ∈ parts, ∀ values, (side.1, values) ∈ part → value ∈ values

theorem Merged.refines (merged : Merged parts whole) (member : part ∈ parts) :
    Refines whole part := by
  intro side inside
  obtain ⟨values, listed⟩ := merged.covers part member side inside
  refine ⟨values, listed, ?_⟩
  intro value here
  exact ((merged.sides _ listed).2.2 value).mp here part member side.2 inside

/-- A rectangle that refines all the parts refines their intersection. -/
theorem Merged.refined (merged : Merged parts whole) (distinct : Distinct a)
    (refines : ∀ part ∈ parts, Refines a part) : Refines a whole := by
  intro side member
  obtain ⟨-, ⟨part, partMember, values, listed⟩, allowed⟩ := merged.sides side member
  obtain ⟨own, ownListed, -⟩ := refines part partMember _ listed
  refine ⟨own, ownListed, ?_⟩
  intro value inside
  rw [allowed]
  intro other otherMember others otherListed
  obtain ⟨own', ownListed', narrower⟩ := refines other otherMember _ otherListed
  rw [distinct.unique ownListed ownListed'] at inside
  exact narrower inside

/-! ## Bounding rectangles -/

/-- The dimensions that all the parts restrict, with all the values they allow. -/
structure Bounding (parts : List (Rectangle κ ν)) (whole : Rectangle κ ν) : Prop where
  distinct : Distinct whole
  covers : ∀ key, (∀ part ∈ parts, ∃ values, (key, values) ∈ part) →
    ∃ values, (key, values) ∈ whole
  sides : ∀ side ∈ whole, (∀ part ∈ parts, ∃ values, (side.1, values) ∈ part) ∧
    ∀ value, value ∈ side.2 ↔ ∃ part ∈ parts, ∃ values, (side.1, values) ∈ part ∧ value ∈ values

theorem Bounding.refined (bounding : Bounding parts whole) (member : part ∈ parts) :
    Refines part whole := by
  intro side listed
  obtain ⟨every, allowed⟩ := bounding.sides side listed
  obtain ⟨values, inside⟩ := every part member
  exact ⟨values, inside, fun value here => (allowed value).mpr ⟨part, member, values, inside, here⟩⟩

/-- The bounding rectangle refines what all the parts refine. -/
theorem Bounding.refines (bounding : Bounding parts whole)
    (distinct : ∀ part ∈ parts, Distinct part) (refines : ∀ part ∈ parts, Refines part a) :
    Refines whole a := by
  intro side member
  have every : ∀ part ∈ parts, ∃ values, (side.1, values) ∈ part := by
    intro part partMember
    obtain ⟨values, listed, -⟩ := refines part partMember side member
    exact ⟨values, listed⟩
  obtain ⟨values, listed⟩ := bounding.covers side.1 every
  refine ⟨values, listed, ?_⟩
  intro value inside
  obtain ⟨part, partMember, own, ownListed, here⟩ :=
    ((bounding.sides _ listed).2 value).mp inside
  obtain ⟨own', ownListed', narrower⟩ := refines part partMember side member
  rw [(distinct part partMember).unique ownListed ownListed'] at here
  exact narrower here

/-- Two parts differ in a dimension. -/
def Varies (parts : List (Rectangle κ ν)) (key : κ) : Prop :=
  ∃ part ∈ parts, ∃ other ∈ parts, ∃ values values', (key, values) ∈ part ∧
    (key, values') ∈ other ∧ values ≠ values'

/-- A relation that meets the bounding rectangle meets the kept dimensions of one of the parts, when
these vary in at most one of them. -/
theorem Bounding.choose (bounding : Bounding parts whole) (nonempty : parts ≠ [])
    (distinct : ∀ part ∈ parts, Distinct part)
    (rigid : ∀ side ∈ whole, ∀ side' ∈ whole, Varies parts side.1 → Varies parts side'.1 →
      side.1 = side'.1) (meets : Meets holds whole) :
    ∃ part ∈ parts, ∀ side ∈ part, (∃ values, (side.1, values) ∈ whole) →
      ∃ value ∈ side.2, holds side.1 value := by
  -- a dimension in which the parts agree holds one of its values in every part
  have agreed : ∀ side ∈ whole, ¬ Varies parts side.1 → ∀ part ∈ parts, ∀ values,
      (side.1, values) ∈ part → ∃ value ∈ values, holds side.1 value := by
    intro side member same part partMember values listed
    obtain ⟨value, inside, here⟩ := meets side member
    obtain ⟨other, otherMember, values', otherListed, allowed⟩ :=
      ((bounding.sides side member).2 value).mp inside
    refine ⟨value, ?_, here⟩
    by_contra outside
    refine same ⟨part, partMember, other, otherMember, values, values', listed, otherListed, ?_⟩
    rintro rfl
    exact outside allowed
  by_cases varying : ∃ side ∈ whole, Varies parts side.1
  · obtain ⟨side, member, varies⟩ := varying
    obtain ⟨value, inside, here⟩ := meets side member
    obtain ⟨part, partMember, values, listed, allowed⟩ :=
      ((bounding.sides side member).2 value).mp inside
    refine ⟨part, partMember, ?_⟩
    rintro ⟨key, own⟩ ownListed ⟨kept, keptListed⟩
    by_cases same : Varies parts key
    · obtain rfl := rigid _ keptListed side member same varies
      rw [(distinct part partMember).unique ownListed listed]
      exact ⟨value, allowed, here⟩
    · exact agreed _ keptListed same part partMember own ownListed
  · obtain ⟨part, partMember⟩ := List.exists_mem_of_ne_nil _ nonempty
    refine ⟨part, partMember, ?_⟩
    rintro ⟨key, own⟩ ownListed ⟨kept, keptListed⟩
    refine agreed _ keptListed ?_ part partMember own ownListed
    intro varies
    exact varying ⟨_, keptListed, varies⟩

end Rectangle
