import ProcessCensus.Record.Layout
import Mathlib.Data.List.Nodup
import Mathlib.Data.List.Pairwise
import Mathlib.Data.List.TakeWhile

/-!
The fields of a record built from its members lie inside the record, and two of them overlap only
where one is a part of the other. Nothing here depends on which members a record has: the alignment
rule puts each member behind the one before it, and a nested record keeps to the bytes of its member.
-/

namespace ProcessCensus.Record

/-- The first path leads to a part of what the second leads to. -/
def Below (inner outer : String) : Prop :=
  ∃ rest, inner = outer ++ "." ++ rest

/-- One of the paths leads to the other's field or to a part of it. -/
def Nested (path other : String) : Prop :=
  path = other ∨ Below path other ∨ Below other path

/-- A field that is a part of another, by its path and by its bytes. -/
structure Field.Within (inner outer : Field) : Prop where
  below : Below inner.path outer.path
  lower : outer.offset ≤ inner.offset
  upper : inner.offset + inner.size ≤ outer.offset + outer.size

/-- Fields without a common byte. -/
def Field.Disjoint (f g : Field) : Prop :=
  f.offset + f.size ≤ g.offset ∨ g.offset + g.size ≤ f.offset

/-- A layout whose fields have a path each, lie inside the record and overlap only where one is a part
of the other. -/
structure Layout.Sound (layout : Layout) : Prop where
  distinct : (layout.fields.map Field.path).Nodup
  inside : ∀ f ∈ layout.fields, f.offset + f.size ≤ layout.size
  apart : ∀ f ∈ layout.fields, ∀ g ∈ layout.fields,
    f = g ∨ f.Within g ∨ g.Within f ∨ f.Disjoint g

section Paths

variable {inner outer head path other : String}

theorem Below.under (hBelow : Below inner outer) (head : String) :
    Below (head ++ "." ++ inner) (head ++ "." ++ outer) := by
  obtain ⟨rest, rfl⟩ := hBelow
  exact ⟨rest, by simp only [String.append_assoc]⟩

theorem Below.ne (hBelow : Below inner outer) : inner ≠ outer := by
  obtain ⟨rest, rfl⟩ := hBelow
  intro hEq
  have hLength := congrArg String.length hEq
  simp only [String.length_append] at hLength
  have hDot : ".".length = 1 := rfl
  omega

theorem below_append (head path : String) : Below (head ++ "." ++ path) head :=
  ⟨path, rfl⟩

theorem under_inj (hEq : head ++ "." ++ path = head ++ "." ++ other) : path = other :=
  String.append_right_inj _ |>.mp hEq

/-- The part of a path in front of its first dot. -/
def firstName (path : String) : List Char :=
  path.toList.takeWhile (· != '.')

theorem firstName_of_undotted (hUndotted : '.' ∉ head.toList) : firstName head = head.toList := by
  refine List.takeWhile_eq_self_iff.mpr fun c hMem => bne_iff_ne.mpr ?_
  rintro rfl
  exact hUndotted hMem

theorem firstName_under (head path : String) : firstName (head ++ "." ++ path) = firstName head := by
  have hDot : ((".".toList ++ path.toList).takeWhile (· != '.')) = [] := rfl
  rw [firstName, firstName, String.toList_append, String.toList_append, List.append_assoc,
    List.takeWhile_append, hDot, List.append_nil]
  split
  · rename_i hLength
    exact (List.takeWhile_prefix _).eq_of_length hLength |>.symm
  · rfl

/-- Nested paths start with the same name. -/
theorem Nested.firstName_eq (hNested : Nested path other) : firstName path = firstName other := by
  rcases hNested with rfl | ⟨rest, rfl⟩ | ⟨rest, rfl⟩
  · rfl
  · exact firstName_under other rest
  · exact (firstName_under path rest).symm

end Paths

section Fields

variable {f g : Field}

/-- The field of a nested record, seen from the record around it. -/
def Field.under (f : Field) (head : String) (offset : Nat) : Field :=
  { path := head ++ "." ++ f.path, offset := offset + f.offset, size := f.size }

theorem Field.Within.under (hWithin : f.Within g) (head : String) (offset : Nat) :
    (f.under head offset).Within (g.under head offset) where
  below := hWithin.below.under head
  lower := Nat.add_le_add_left hWithin.lower offset
  upper := by
    have hUpper := hWithin.upper
    simp only [Field.under]
    omega

theorem Field.Disjoint.under (hDisjoint : f.Disjoint g) (head : String) (offset : Nat) :
    (f.under head offset).Disjoint (g.under head offset) := by
  rcases hDisjoint with hBefore | hBefore
  · exact .inl (by simp only [Field.under]; omega)
  · exact .inr (by simp only [Field.under]; omega)

end Fields

section Members

variable {start : Nat} {members : List Member} {placed other : Member × Nat} {f g : Field}

theorem le_roundUp (n : Nat) {alignment : Nat} (hAlignment : 0 < alignment) :
    n ≤ roundUp n alignment := by
  have hRest := Nat.mod_lt (n + alignment - 1) hAlignment
  have hSplit := Nat.div_add_mod' (n + alignment - 1) alignment
  rw [roundUp]
  omega

/-- The name of a member has no dot in it, and the member can be aligned. -/
structure Member.Proper (m : Member) : Prop where
  undotted : '.' ∉ m.name.toList
  aligned : 0 < m.shape.alignment

instance (m : Member) : Decidable m.Proper :=
  decidable_of_iff ('.' ∉ m.name.toList ∧ 0 < m.shape.alignment)
    ⟨fun hParts => ⟨hParts.1, hParts.2⟩, fun hProper => ⟨hProper.undotted, hProper.aligned⟩⟩

/-- The record that a member is. -/
def Member.record? (m : Member) : Option Layout :=
  match m.shape with
  | .record layout => some layout
  | _ => none

/-- Where the last of the members ends. -/
def extent (start : Nat) (members : List Member) : Nat :=
  (place start members).foldl (fun _ (m, offset) => offset + m.shape.size) start

theorem extent_cons (m : Member) (rest : List Member) :
    extent start (m :: rest) =
      extent (roundUp start m.shape.alignment + m.shape.size) rest :=
  rfl

theorem mem_of_mem_place (hPlaced : placed ∈ place start members) : placed.1 ∈ members := by
  induction members generalizing start with
  | nil => cases hPlaced
  | cons m rest ih =>
      rcases List.mem_cons.mp hPlaced with rfl | hRest
      · exact List.mem_cons_self
      · exact List.mem_cons_of_mem _ (ih hRest)

theorem le_extent (hProper : ∀ m ∈ members, m.Proper) : start ≤ extent start members := by
  induction members generalizing start with
  | nil => exact Nat.le_refl _
  | cons m rest ih =>
      have hStart := le_roundUp start (hProper m List.mem_cons_self).aligned
      have hRest : roundUp start m.shape.alignment + m.shape.size ≤ extent start (m :: rest) :=
        ih fun m' hMem => hProper m' (List.mem_cons_of_mem _ hMem)
      omega

theorem exists_mem_place {m : Member} (hMem : m ∈ members) :
    ∃ offset, (m, offset) ∈ place start members := by
  induction members generalizing start with
  | nil => cases hMem
  | cons first rest ih =>
      rcases List.mem_cons.mp hMem with rfl | hRest
      · exact ⟨_, List.mem_cons_self⟩
      · obtain ⟨offset, hPlaced⟩ := ih hRest
        exact ⟨offset, List.mem_cons_of_mem _ hPlaced⟩

/-- A member lies between where the placing starts and where it ends. -/
theorem bounds_of_mem_place (hProper : ∀ m ∈ members, m.Proper)
    (hPlaced : placed ∈ place start members) :
    start ≤ placed.2 ∧ placed.2 + placed.1.shape.size ≤ extent start members := by
  induction members generalizing start with
  | nil => cases hPlaced
  | cons m rest ih =>
      have hStart := le_roundUp start (hProper m List.mem_cons_self).aligned
      have hProperRest : ∀ m' ∈ rest, m'.Proper :=
        fun m' hMem => hProper m' (List.mem_cons_of_mem _ hMem)
      rw [extent_cons]
      rcases List.mem_cons.mp hPlaced with rfl | hRest
      · exact ⟨hStart, le_extent hProperRest⟩
      · obtain ⟨hLower, hUpper⟩ := ih hProperRest hRest
        exact ⟨by omega, hUpper⟩

/-- Members of different names, one behind the other. -/
def Separate (placed other : Member × Nat) : Prop :=
  placed.1.name ≠ other.1.name ∧
    (placed.2 + placed.1.shape.size ≤ other.2 ∨ other.2 + other.1.shape.size ≤ placed.2)

theorem pairwise_place (hNames : (members.map Member.name).Nodup)
    (hProper : ∀ m ∈ members, m.Proper) : (place start members).Pairwise Separate := by
  induction members generalizing start with
  | nil => exact .nil
  | cons m rest ih =>
      have hProperRest : ∀ m' ∈ rest, m'.Proper :=
        fun m' hMem => hProper m' (List.mem_cons_of_mem _ hMem)
      obtain ⟨hName, hNamesRest⟩ := List.nodup_cons.mp hNames
      refine .cons (fun later hLater => ⟨?_, .inl ?_⟩) (ih hNamesRest hProperRest)
      · intro hEq
        exact hName (List.mem_map.mpr ⟨later.1, mem_of_mem_place hLater, hEq.symm⟩)
      · exact (bounds_of_mem_place hProperRest hLater).1

instance : Std.Symm Separate where
  symm := fun _ _ hSeparate => ⟨hSeparate.1.symm, hSeparate.2.symm⟩

/-- The field that a member is. -/
def ownField (placed : Member × Nat) : Field where
  path := placed.1.name
  offset := placed.2
  size := placed.1.shape.size

/-- The fields of the record that a member is, if it is one. -/
def nestedFields (placed : Member × Nat) : List Field :=
  match placed.1.shape with
  | .record inner => inner.fields.map (·.under placed.1.name placed.2)
  | _ => []

theorem fields_foldl_embedMember (places : List (Member × Nat)) (layout : Layout) :
    (places.foldl Layout.embedMember layout).fields =
      layout.fields ++ places.flatMap nestedFields := by
  induction places generalizing layout with
  | nil => exact (List.append_nil _).symm
  | cons placed rest ih =>
      have hEmbed : (layout.embedMember placed).fields = layout.fields ++ nestedFields placed := by
        rw [Layout.embedMember, nestedFields]
        cases placed.1.shape with
        | record inner => rfl
        | word width => exact (List.append_nil _).symm
        | array width count => exact (List.append_nil _).symm
      rw [List.foldl_cons, ih, hEmbed, List.append_assoc, List.flatMap_cons]

theorem fields_ofMembers (name : String) (members : List Member) :
    (Layout.ofMembers name members).fields =
      (place 0 members).map ownField ++ (place 0 members).flatMap nestedFields :=
  fields_foldl_embedMember (place 0 members) _

/-- The field is the member itself or belongs to the record that the member is. -/
inductive Declares (placed : Member × Nat) : Field → Prop
  | own : Declares placed (ownField placed)
  | nested {inner : Layout} {g : Field} (hRecord : placed.1.shape = .record inner)
      (hField : g ∈ inner.fields) : Declares placed (g.under placed.1.name placed.2)

theorem mem_nestedFields_iff :
    f ∈ nestedFields placed ↔ ∃ inner g, placed.1.shape = .record inner ∧ g ∈ inner.fields ∧
      g.under placed.1.name placed.2 = f := by
  rw [nestedFields]
  cases placed.1.shape with
  | word width => simp
  | array width count => simp
  | record inner => simp

/-- The fields of a record are its members and the fields of those members that are records. -/
theorem mem_fields_ofMembers {name : String} :
    f ∈ (Layout.ofMembers name members).fields ↔
      ∃ placed ∈ place 0 members, Declares placed f := by
  simp only [fields_ofMembers, List.mem_append, List.mem_map, List.mem_flatMap, mem_nestedFields_iff]
  constructor
  · rintro (⟨placed, hPlaced, rfl⟩ | ⟨placed, hPlaced, inner, g, hRecord, hField, rfl⟩)
    · exact ⟨placed, hPlaced, .own⟩
    · exact ⟨placed, hPlaced, .nested hRecord hField⟩
  · rintro ⟨placed, hPlaced, hDeclares⟩
    cases hDeclares with
    | own => exact .inl ⟨placed, hPlaced, rfl⟩
    | nested hRecord hField => exact .inr ⟨placed, hPlaced, _, _, hRecord, hField, rfl⟩

theorem size_foldl_embedMember (places : List (Member × Nat)) (layout : Layout) :
    (places.foldl Layout.embedMember layout).size = layout.size := by
  induction places generalizing layout with
  | nil => rfl
  | cons placed rest ih =>
      rw [List.foldl_cons, ih, Layout.embedMember]
      split <;> rfl

theorem le_foldl_alignment (members : List Member) (start : Nat) :
    start ≤ members.foldl (fun a m => max a m.shape.alignment) start := by
  induction members generalizing start with
  | nil => exact Nat.le_refl _
  | cons m rest ih => exact Nat.le_trans (Nat.le_max_left _ _) (ih _)

theorem extent_le_size {name : String} :
    extent 0 members ≤ (Layout.ofMembers name members).size := by
  rw [Layout.ofMembers, size_foldl_embedMember]
  exact le_roundUp _ (le_foldl_alignment members 1)

/-! A field that a member declares keeps to the bytes of the member and to its name. -/

theorem firstName_of_declares (hProper : placed.1.Proper) (hDeclares : Declares placed f) :
    firstName f.path = placed.1.name.toList := by
  cases hDeclares with
  | own => exact firstName_of_undotted hProper.undotted
  | nested hRecord hField =>
      exact (firstName_under _ _).trans (firstName_of_undotted hProper.undotted)

theorem bounds_of_declares (hSound : ∀ inner, placed.1.shape = .record inner → inner.Sound)
    (hDeclares : Declares placed f) :
    placed.2 ≤ f.offset ∧ f.offset + f.size ≤ placed.2 + placed.1.shape.size := by
  cases hDeclares with
  | own => exact ⟨Nat.le_refl _, Nat.le_refl _⟩
  | nested hRecord hField =>
      have hInside := (hSound _ hRecord).inside _ hField
      rw [hRecord]
      simp only [Field.under, Shape.size]
      omega

/-- Fields of one member overlap only where one is a part of the other. -/
theorem apart_of_declares (hSound : ∀ inner, placed.1.shape = .record inner → inner.Sound)
    (hF : Declares placed f) (hG : Declares placed g) :
    f = g ∨ f.Within g ∨ g.Within f ∨ f.Disjoint g := by
  cases hF with
  | own =>
      cases hG with
      | own => exact .inl rfl
      | nested hRecord hField =>
          obtain ⟨hLower, hUpper⟩ := bounds_of_declares hSound (.nested hRecord hField)
          exact .inr (.inr (.inl ⟨below_append _ _, hLower, hUpper⟩))
  | nested hRecord hField =>
      cases hG with
      | own =>
          obtain ⟨hLower, hUpper⟩ := bounds_of_declares hSound (.nested hRecord hField)
          exact .inr (.inl ⟨below_append _ _, hLower, hUpper⟩)
      | nested hRecord' hField' =>
          cases hRecord.symm.trans hRecord'
          rcases (hSound _ hRecord).apart _ hField _ hField' with rfl | hIn | hOut | hDisjoint
          · exact .inl rfl
          · exact .inr (.inl (hIn.under _ _))
          · exact .inr (.inr (.inl (hOut.under _ _)))
          · exact .inr (.inr (.inr (hDisjoint.under _ _)))

theorem below_of_mem_nestedFields (hField : f ∈ nestedFields placed) :
    Below f.path placed.1.name := by
  obtain ⟨inner, g, -, -, rfl⟩ := mem_nestedFields_iff.mp hField
  exact below_append _ _

theorem firstName_of_mem_nestedFields (hProper : placed.1.Proper) (hField : f ∈ nestedFields placed) :
    firstName f.path = placed.1.name.toList := by
  obtain ⟨inner, g, hRecord, hMem, rfl⟩ := mem_nestedFields_iff.mp hField
  exact firstName_of_declares hProper (.nested hRecord hMem)

theorem nodup_nestedFields (hSound : ∀ inner, placed.1.shape = .record inner → inner.Sound) :
    ((nestedFields placed).map Field.path).Nodup := by
  rw [nestedFields.eq_def]
  split
  case h_1 inner hRecord =>
    have hUnder : Function.Injective (placed.1.name ++ "." ++ · : String → String) :=
      fun _ _ => under_inj
    have hPaths := (hSound inner hRecord).distinct.map hUnder
    rwa [List.map_map] at hPaths ⊢
  case h_2 => exact List.nodup_nil

/-- No two fields of a record have the same path. -/
theorem nodup_paths_ofMembers {name : String} (hNames : (members.map Member.name).Nodup)
    (hProper : ∀ m ∈ members, m.Proper)
    (hSound : ∀ placed ∈ place 0 members, ∀ inner, placed.1.shape = .record inner → inner.Sound) :
    ((Layout.ofMembers name members).fields.map Field.path).Nodup := by
  have hPlaces : (place 0 members).Pairwise Separate := pairwise_place hNames hProper
  have hFirst : ∀ placed ∈ place 0 members, ∀ f ∈ nestedFields placed,
      firstName f.path = placed.1.name.toList :=
    fun placed hPlaced _ => firstName_of_mem_nestedFields (hProper _ (mem_of_mem_place hPlaced))
  rw [fields_ofMembers, List.map_append, List.map_flatMap, List.map_map]
  refine List.Nodup.append ?own (List.nodup_flatMap.mpr ⟨?each, ?across⟩) ?between
  case own => exact List.pairwise_map.mpr (hPlaces.imp And.left)
  case each => exact fun placed hPlaced => nodup_nestedFields (hSound placed hPlaced)
  case across =>
    refine hPlaces.imp_of_mem fun {placed other} hPlaced hOther hSeparate => ?_
    intro path hPath hPathOther
    obtain ⟨f, hF, rfl⟩ := List.mem_map.mp hPath
    obtain ⟨g, hG, hSame⟩ := List.mem_map.mp hPathOther
    refine hSeparate.1 (String.toList_inj.mp ?_)
    rw [← hFirst placed hPlaced f hF, ← hFirst other hOther g hG, hSame]
  case between =>
    intro path hOwn hNested
    obtain ⟨placed, hPlaced, rfl⟩ := List.mem_map.mp hOwn
    obtain ⟨other, hOther, hPath⟩ := List.mem_flatMap.mp hNested
    obtain ⟨f, hF, hSame⟩ := List.mem_map.mp hPath
    change f.path = placed.1.name at hSame
    -- The name of a member has no dot, so it can only be the member that the path goes through.
    have hName : placed.1.name = other.1.name := by
      refine String.toList_inj.mp ?_
      rw [← firstName_of_undotted (hProper _ (mem_of_mem_place hPlaced)).undotted, ← hSame,
        hFirst other hOther f hF]
    exact (below_of_mem_nestedFields hF).ne (hSame.trans hName)

/-- A record whose members have names of their own is sound if the records among its members are. -/
theorem sound_ofMembers {name : String} (hNames : (members.map Member.name).Nodup)
    (hProper : ∀ m ∈ members, m.Proper)
    (hSound : ∀ inner ∈ members.filterMap Member.record?, inner.Sound) :
    (Layout.ofMembers name members).Sound := by
  have hInner : ∀ placed ∈ place 0 members, ∀ inner, placed.1.shape = .record inner →
      inner.Sound := by
    intro placed hPlaced inner hRecord
    refine hSound inner (List.mem_filterMap.mpr ⟨placed.1, mem_of_mem_place hPlaced, ?_⟩)
    rw [Member.record?, hRecord]
  refine ⟨nodup_paths_ofMembers hNames hProper hInner, fun f hF => ?inside,
    fun f hF g hG => ?apart⟩
  case inside =>
    obtain ⟨placed, hPlaced, hDeclares⟩ := mem_fields_ofMembers.mp hF
    calc
      f.offset + f.size ≤ placed.2 + placed.1.shape.size :=
        (bounds_of_declares (hInner placed hPlaced) hDeclares).2
      _ ≤ extent 0 members := (bounds_of_mem_place hProper hPlaced).2
      _ ≤ (Layout.ofMembers name members).size := extent_le_size
  case apart =>
    obtain ⟨placed, hPlaced, hDeclaresF⟩ := mem_fields_ofMembers.mp hF
    obtain ⟨other, hOther, hDeclaresG⟩ := mem_fields_ofMembers.mp hG
    by_cases hSame : placed = other
    · subst hSame
      exact apart_of_declares (hInner placed hPlaced) hDeclaresF hDeclaresG
    · obtain ⟨-, hBytes⟩ := (pairwise_place hNames hProper).forall hPlaced hOther hSame
      have hBoundsF := bounds_of_declares (hInner placed hPlaced) hDeclaresF
      have hBoundsG := bounds_of_declares (hInner other hOther) hDeclaresG
      refine .inr (.inr (.inr ?_))
      rcases hBytes with hBefore | hBefore
      · exact .inl (by omega)
      · exact .inr (by omega)

end Members

namespace Layout

variable {layout : Layout} {path : String} {f g : Field}

theorem field_eq_ok_iff :
    layout.field path = .ok f ↔ layout.fields.find? (·.path == path) = some f := by
  rw [field]
  cases layout.fields.find? (·.path == path) with
  | none => exact iff_of_false (fun hOk => by cases hOk) (fun hSome => by cases hSome)
  | some found => rw [Except.ok.injEq, Option.some.injEq]

theorem mem_of_field_eq_ok (hField : layout.field path = .ok f) :
    f ∈ layout.fields ∧ f.path = path := by
  have hFound := field_eq_ok_iff.mp hField
  have hPath := List.find?_some hFound
  exact ⟨List.mem_of_find?_eq_some hFound, beq_iff_eq.mp hPath⟩

theorem Sound.unique (hSound : layout.Sound) (hF : f ∈ layout.fields) (hG : g ∈ layout.fields)
    (hPath : f.path = g.path) : f = g :=
  List.inj_on_of_nodup_map hSound.distinct hF hG hPath

/-- A field of a layout that tells its fields apart is found under its path. -/
theorem Sound.field_path (hSound : layout.Sound) (hField : f ∈ layout.fields) :
    layout.field f.path = .ok f := by
  obtain ⟨found, hFound⟩ : ∃ found, layout.fields.find? (·.path == f.path) = some found :=
    Option.isSome_iff_exists.mp (List.find?_isSome.mpr ⟨f, hField, beq_self_eq_true f.path⟩)
  obtain ⟨hMem, hPath⟩ := mem_of_field_eq_ok (field_eq_ok_iff.mpr hFound)
  rw [field_eq_ok_iff, hFound, hSound.unique hMem hField hPath]

end Layout

end ProcessCensus.Record
