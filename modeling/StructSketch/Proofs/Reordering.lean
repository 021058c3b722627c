import StructSketch.Proofs.FieldNames
import StructSketch.Proofs.GivenNames
import StructSketch.Proofs.Shape

/-!
# Samples that differ in the order of their members

* **`Json.Reordered`** relates values that differ only in the order of the members of their objects.
* **`Json.shapeBy_eq_of_reordered`**: where no two keys of an observed object have one name,
  reordering keeps the shape, since the order by distinct names leaves no choice.
* **`Outline.blocks_eq_of_shape_eq`**: where every record has the very name it asks for, the
  declarations of an outline depend on its shape alone.
* **`Schema.declarations_of_reordered`**: so reordered samples have the same declarations, where no
  name is asked for twice.
-/

namespace StructSketch

/-! ## Distinct names -/

/-- The order by names does not depend on the order before, as far as the names are distinct. -/
theorem byName_eq_of_perm {α : Type} {members members' : List (String × α)}
    (hperm : members.Perm members') (hnodup : (members.map fun m => Go.nameOfKey m.1).Nodup) :
    byName members = byName members' := by
  have hsorted : ∀ members : List (String × α), (byName members).Pairwise fun m n =>
      Text.byteLE (Go.nameOfKey m.1) (Go.nameOfKey n.1) = true := fun members =>
    List.pairwise_mergeSort
      (fun (l m n : String × α) =>
        Text.byteLE_trans (Go.nameOfKey l.1) (Go.nameOfKey m.1) (Go.nameOfKey n.1))
      (fun m n => Text.byteLE_total (Go.nameOfKey m.1) (Go.nameOfKey n.1)) members
  refine List.Perm.eq_of_pairwise ?_ (hsorted members) (hsorted members')
    (((byName_perm members).trans hperm).trans (byName_perm members').symm)
  intro m n hm hn hle hge
  have hm := (byName_perm members).mem_iff.mp hm
  have hn := hperm.mem_iff.mpr ((byName_perm members').mem_iff.mp hn)
  have hname : Go.nameOfKey m.1 = Go.nameOfKey n.1 :=
    Text.bytes_injective (List.le_antisymm (of_decide_eq_true hle) (of_decide_eq_true hge))
  exact List.inj_on_of_nodup_map hnodup hm hn hname

/-! ## Reordered values -/

namespace Json

mutual

/-- Values that differ only in the order of the members of their objects, at any depth. -/
inductive Reordered : Json → Json → Prop
  | null : Reordered .null .null
  | boolean {value} : Reordered (.boolean value) (.boolean value)
  | number {literal} : Reordered (.number literal) (.number literal)
  | string {text} : Reordered (.string text) (.string text)
  | array {items items'} : List.Forall₂ Reordered items items' →
      Reordered (.array items) (.array items')
  | object {members middle members'} : ReorderedMembers members middle →
      middle.Perm members' → Reordered (.object members) (.object members')

/-- Lists of members with the same keys in the same places, over values that are reordered. -/
inductive ReorderedMembers : List (String × Json) → List (String × Json) → Prop
  | nil : ReorderedMembers [] []
  | cons {key value value' rest rest'} : Reordered value value' → ReorderedMembers rest rest' →
      ReorderedMembers ((key, value) :: rest) ((key, value') :: rest')

end

mutual

/-- Reordering keeps the names that the observed objects ask for. -/
theorem bases_perm_of_reordered (base : String) : (value : Json) → {value' : Json} →
    value.Reordered value' →
    ((value.objects base).map Prod.fst).Perm ((value'.objects base).map Prod.fst)
  | .null, _, .null => .refl _
  | .boolean _, _, .boolean => .refl _
  | .number _, _, .number => .refl _
  | .string _, _, .string => .refl _
  | .array [], _, .array .nil => .refl _
  | .array (item :: _), _, .array (.cons h _) => by
    have hitem := bases_perm_of_reordered base item h
    exact hitem
  | .object members, _, @Reordered.object _ middle members' h hperm => by
    have hmembers := bases_perm_of_reorderedMembers members h
    have hmoved : (memberObjects middle).Perm (memberObjects members') := by
      rw [memberObjects_eq_flatMap, memberObjects_eq_flatMap]
      exact hperm.flatMap_right _
    exact (hmembers.trans (hmoved.map _)).cons base

theorem bases_perm_of_reorderedMembers : (members : List (String × Json)) →
    {members' : List (String × Json)} → ReorderedMembers members members' →
    ((memberObjects members).map Prod.fst).Perm ((memberObjects members').map Prod.fst)
  | [], _, .nil => .refl _
  | (key, value) :: rest, _, .cons h hrest => by
    rw [memberObjects, memberObjects, List.map_append, List.map_append]
    exact (bases_perm_of_reordered (Go.nameOfKey key) value h).append
      (bases_perm_of_reorderedMembers rest hrest)

end

mutual

/-- Reordering keeps the shape, where no two keys of an observed object have one name. -/
theorem shapeBy_eq_of_reordered (scalarOf : String → Scalar) (base : String) : (value : Json) →
    {value' : Json} → value.Reordered value' →
    (∀ o ∈ value.objects base, (o.2.map fun m => Go.nameOfKey m.1).Nodup) →
    value.shapeBy scalarOf = value'.shapeBy scalarOf
  | .null, _, .null, _ => rfl
  | .boolean _, _, .boolean, _ => rfl
  | .number _, _, .number, _ => rfl
  | .string _, _, .string, _ => rfl
  | .array [], _, .array .nil, _ => rfl
  | .array (item :: _), _, .array (.cons h _), hnames =>
    congrArg Shape.array (shapeBy_eq_of_reordered scalarOf base item h hnames)
  | .object members, _, @Reordered.object _ middle members' h hperm, hnames => by
    obtain ⟨hnodup, hnames⟩ := List.forall_mem_cons.mp hnames
    have hmembers := memberShapesBy_eq_of_reordered scalarOf members h hnames
    have hmoved : (memberShapesBy scalarOf members).Perm (memberShapesBy scalarOf members') := by
      rw [hmembers, memberShapesBy_eq_map, memberShapesBy_eq_map]
      exact hperm.map _
    have hdistinct : ((memberShapesBy scalarOf members).map fun m => Go.nameOfKey m.1).Nodup := by
      rw [memberShapesBy_eq_map, List.map_map]
      exact hnodup
    exact congrArg Shape.record (byName_eq_of_perm hmoved hdistinct)

theorem memberShapesBy_eq_of_reordered (scalarOf : String → Scalar) :
    (members : List (String × Json)) → {members' : List (String × Json)} →
    ReorderedMembers members members' →
    (∀ o ∈ memberObjects members, (o.2.map fun m => Go.nameOfKey m.1).Nodup) →
    memberShapesBy scalarOf members = memberShapesBy scalarOf members'
  | [], _, .nil, _ => rfl
  | (key, value) :: rest, _, .cons h hrest, hnames => by
    obtain ⟨hvalue, hnames⟩ := List.forall_mem_append.mp hnames
    rw [memberShapesBy, memberShapesBy,
      shapeBy_eq_of_reordered scalarOf (Go.nameOfKey key) value h hvalue,
      memberShapesBy_eq_of_reordered scalarOf rest hrest hnames]

end

end Json

/-! ## Declarations of a shape -/

/-- Lists that are related item by item have equal images, as far as related items have. -/
theorem map_eq_map_of_forall₂ {α β γ : Type} {R : α → β → Prop} {f : α → γ} {g : β → γ}
    {items : List α} {items' : List β} (h : List.Forall₂ R items items')
    (heq : ∀ a ∈ items, ∀ b ∈ items', R a b → f a = g b) : items.map f = items'.map g := by
  induction h with
  | nil => rfl
  | cons hab _ ih =>
    rw [List.map_cons, List.map_cons, heq _ List.mem_cons_self _ List.mem_cons_self hab,
      ih fun a ha b hb => heq a (List.mem_cons_of_mem _ ha) b (List.mem_cons_of_mem _ hb)]

namespace Outline

variable {base : String} {o o' : Outline}

/-- Where every record has the very name it asks for, outlines of one shape have one type. -/
theorem sameType_of_shape_eq (h : o.NamedAfter ∅ base) (h' : o'.NamedAfter ∅ base)
    (hshape : o.shape = o'.shape) : o.SameType o' := by
  induction h generalizing o' with
  | scalar =>
    cases h' with
    | scalar =>
      cases hshape
      exact .scalar
    | array _ => cases hshape
    | record _ _ => cases hshape
  | array _ ih =>
    cases h' with
    | scalar => cases hshape
    | array h' => exact .array (ih h' (Shape.array.inj hshape))
    | record _ _ => cases hshape
  | record hname _ _ =>
    cases h' with
    | scalar => cases hshape
    | array _ => cases hshape
    | record hname' _ =>
      obtain rfl := hname.eq_base
      obtain rfl := hname'.eq_base
      exact .record

/-- Where every record has the very name it asks for, outlines of one shape have the same
declarations. -/
theorem blocks_eq_of_shape_eq (indent : String) (h : o.NamedAfter ∅ base)
    (h' : o'.NamedAfter ∅ base) (hshape : o.shape = o'.shape) :
    o.blocks indent = o'.blocks indent := by
  have hsame := sameType_of_shape_eq h h' hshape
  induction o using Outline.induct generalizing o' base with
  | scalar s =>
    cases hsame
    rfl
  | array element ih =>
    cases hsame with | array hsame
    cases h with | array h
    cases h' with | array h'
    have helement := ih h h' (Shape.array.inj hshape) hsame
    exact helement
  | record name members ih =>
    cases hsame with | @record _ _ members'
    cases h with | record _ hmembers
    cases h' with | record _ hmembers'
    have hshapes := shape_record_inj.mp hshape
    -- members in one place have one key, so they are named after the same name
    have hpair : ∀ m ∈ byName members, ∀ m' ∈ byName members',
        m.1 = m'.1 ∧ m.2.shape = m'.2.shape →
        line indent m = line indent m' ∧ m.2.blocks indent = m'.2.blocks indent := by
      rintro ⟨key, o⟩ hm ⟨key', o'⟩ hm' ⟨rfl, hshape⟩
      have hm := (byName_perm members).mem_iff.mp hm
      have hnamed := hmembers _ hm
      have hnamed' := hmembers' _ ((byName_perm members').mem_iff.mp hm')
      have hsame := sameType_of_shape_eq hnamed hnamed' hshape
      exact ⟨hsame.line_eq indent key, ih _ hm hnamed hnamed' hshape hsame⟩
    have hlines : (byName members).map (line indent) = (byName members').map (line indent) :=
      map_eq_map_of_forall₂ hshapes fun m hm m' hm' h => (hpair m hm m' hm' h).1
    have hblocks : (byName members).map (fun m => m.2.blocks indent) =
        (byName members').map (fun m => m.2.blocks indent) :=
      map_eq_map_of_forall₂ hshapes fun m hm m' hm' h => (hpair m hm m' hm' h).2
    rw [blocks_record, blocks_record, block, block, hlines, List.flatMap_def, hblocks,
      List.flatMap_def]

end Outline

/-- Samples that differ only in the order of the members of their objects have the same
declarations, as far as no two keys of an observed object have one name and no two observed objects
ask for one name. -/
theorem Schema.declarations_of_reordered {rootName : String}
    {members members' : List (String × Json)}
    (h : (Json.object members).Reordered (.object members'))
    (hnames : ∀ o ∈ (Json.object members).objects rootName,
      (o.2.map fun m => Go.nameOfKey m.1).Nodup)
    (hbases : (((Json.object members).objects rootName).map Prod.fst).Nodup) (style : Go.Style) :
    ∃ schema schema' declarations,
      Schema.infer? rootName (.object members) = .ok schema ∧
      Schema.infer? rootName (.object members') = .ok schema' ∧
      style.declarations schema = .ok declarations ∧
      style.declarations schema' = .ok declarations := by
  have hbases' := (Json.bases_perm_of_reordered rootName _ h).nodup_iff.mp hbases
  have hfree : ∀ value : Json, ∀ o ∈ value.objects rootName, o.1 ∉ (∅ : Finset String) :=
    fun _ _ _ => Finset.notMem_empty _
  have hnamed := (Outline.namedAfter_ofJson_of_nodup ∅ rootName _ hbases (hfree _)).1
  have hnamed' := (Outline.namedAfter_ofJson_of_nodup ∅ rootName _ hbases' (hfree _)).1
  have hshape := Json.shapeBy_eq_of_reordered Scalar.ofNumber rootName _ h hnames
  rw [← Outline.shapeBy_ofJson ∅ rootName, ← Outline.shapeBy_ofJson ∅ rootName] at hshape
  have hblocks : (Outline.ofSample rootName (.object members)).blocks style.indentation.text =
      (Outline.ofSample rootName (.object members')).blocks style.indentation.text :=
    Outline.blocks_eq_of_shape_eq _ hnamed hnamed' hshape
  refine ⟨_, _, _, Schema.infer?_object _ _, Schema.infer?_object _ _,
    Outline.declarations_schema _ style, ?_⟩
  rw [hblocks]
  exact Outline.declarations_schema _ style

/-- The members of a user. -/
def userMembers : List (String × Json) := [("id", .number "1"), ("tags", .array [.null])]

/-- The members of a sample with a user. -/
def sampleMembers : List (String × Json) := [("user", .object userMembers), ("count", .number "2")]

/-- The same members in the other order, at both depths. -/
def swappedMembers : List (String × Json) :=
  [("count", .number "2"), ("user", .object [("tags", .array [.null]), ("id", .number "1")])]

theorem reordered_sampleMembers :
    (Json.object sampleMembers).Reordered (.object swappedMembers) :=
  .object
    (.cons (.object (.cons .number (.cons (.array (.cons .null .nil)) .nil)) (.swap _ _ _))
      (.cons .number .nil))
    (.swap _ _ _)

theorem declarations_of_reordered_sampleMembers :
    (Json.object sampleMembers).Reordered (.object swappedMembers) ∧
      ∃ schema schema' declarations,
        Schema.infer? "Root" (.object sampleMembers) = .ok schema ∧
        Schema.infer? "Root" (.object swappedMembers) = .ok schema' ∧
        ({} : Go.Style).declarations schema = .ok declarations ∧
        ({} : Go.Style).declarations schema' = .ok declarations := by
  have hobjects : (Json.object sampleMembers).objects "Root" =
      [("Root", sampleMembers), (Go.nameOfKey "user", userMembers)] := rfl
  refine ⟨reordered_sampleMembers,
    Schema.declarations_of_reordered reordered_sampleMembers ?_ ?_ {}⟩
  · rw [hobjects, List.forall_mem_cons, List.forall_mem_singleton]
    exact ⟨by decide +kernel, by decide +kernel⟩
  · rw [hobjects]
    decide +kernel

end StructSketch
