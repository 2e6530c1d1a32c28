import MarketFeed.Json.Shape
import MarketFeed.Proofs.Json.Numbers
import Mathlib.Data.List.Perm.Basic
import Mathlib.Data.String.Basic

/-!
# Values of any type

A value comes back from its text, if it has no doubles and does not nest deeper than a reader
follows.
-/

namespace MarketFeed.Json

/-- What a text of at most `levels` nested containers can hold: integers of 64 bits, and objects in
the order of their keys. -/
def Storable : (levels : Nat) → Json → Prop
  | _, null => True
  | _, bool _ => True
  | _, int i => -0x8000000000000000 ≤ i ∧ i ≤ wordMax
  | _, float _ => True
  | _, str _ => True
  | 0, arr _ => False
  | levels + 1, arr items => ∀ item ∈ items, Storable levels item
  | 0, obj _ => False
  | levels + 1, obj members => members.Pairwise (fun a b => a.1 < b.1) ∧
    ∀ member ∈ members, Storable levels member.2

/-- A value without doubles. -/
inductive Exact : Json → Prop
  | null : Exact null
  | bool (b : Bool) : Exact (bool b)
  | int (i : Int) : Exact (int i)
  | str (s : String) : Exact (str s)
  | arr {items : List Json} (h : ∀ item ∈ items, Exact item) : Exact (arr items)
  | obj {members : List (String × Json)} (h : ∀ member ∈ members, Exact member.2) :
    Exact (obj members)

variable {j : Json} {name : String} {members before : List (String × Json)}

lemma Exact.ne_float (h : j.Exact) (x : Float) : j ≠ .float x := by
  rintro rfl
  cases h

/-! Objects in the order of their keys. -/

lemma putMember_of_gt (h : ∀ member ∈ members, member.1 < name) (value : Json) :
    putMember name value members = members ++ [(name, value)] := by
  induction members with
  | nil => rfl
  | cons member rest ih =>
    obtain ⟨hm, hrest⟩ := List.forall_mem_cons.mp h
    rw [putMember, if_neg (lt_asymm hm), if_neg hm.ne', ih hrest]
    rfl

lemma foldl_putMember (h : (before ++ members).Pairwise fun a b => a.1 < b.1) :
    members.foldl (fun acc member => putMember member.1 member.2 acc) before =
      before ++ members := by
  induction members generalizing before with
  | nil => rw [List.foldl_nil, List.append_nil]
  | cons member rest ih =>
    have hlt : ∀ other ∈ before, other.1 < member.1 := fun other ho =>
      (List.pairwise_append.mp h).2.2 other ho member (List.mem_cons_self ..)
    rw [List.append_cons] at h
    rw [List.foldl_cons, putMember_of_gt hlt, ih h]
    exact (List.append_cons ..).symm

/-- Members in the order of their keys make up an object as they are. -/
lemma ofMembers_of_ascending (h : members.Pairwise fun a b => a.1 < b.1) :
    ofMembers members = .obj members := by
  have hfold : members.foldl (fun acc member => putMember member.1 member.2 acc) [] =
      [] ++ members := foldl_putMember h
  rw [ofMembers, hfold, List.nil_append]

lemma putMember_perm (h : name ∉ members.map Prod.fst) (value : Json) :
    (putMember name value members).Perm ((name, value) :: members) := by
  induction members with
  | nil => exact List.Perm.refl _
  | cons member rest ih =>
    rw [List.map_cons, List.mem_cons, not_or] at h
    rw [putMember]
    split_ifs with hlt heq
    · exact List.Perm.refl _
    · exact absurd heq h.1
    · exact ((ih h.2).cons member).trans (List.Perm.swap ..)

lemma foldl_putMember_perm (h : ((before ++ members).map Prod.fst).Nodup) :
    (members.foldl (fun acc member => putMember member.1 member.2 acc) before).Perm
      (before ++ members) := by
  induction members generalizing before with
  | nil => rw [List.foldl_nil, List.append_nil]
  | cons member rest ih =>
    have hnew : member.1 ∉ before.map Prod.fst := fun hm => by
      rw [List.map_append, List.map_cons, List.nodup_append] at h
      exact h.2.2 _ hm _ (List.mem_cons_self ..) rfl
    have hput : (putMember member.1 member.2 before ++ rest).Perm (before ++ member :: rest) :=
      ((putMember_perm hnew member.2).append_right rest).trans List.perm_middle.symm
    rw [List.foldl_cons]
    exact (ih ((hput.map Prod.fst).nodup_iff.mpr h)).trans hput

/-- All layouts put down the same members, in one order or another. -/
lemma Layout.object_perm (layout : Layout) (h : (members.map Prod.fst).Nodup) :
    ∃ placed, layout.object members = .obj placed ∧ placed.Perm members := by
  cases layout with
  | declared => exact ⟨members, rfl, List.Perm.refl _⟩
  | ascending =>
    have hfold : (([] ++ members).map Prod.fst).Nodup := h
    exact ⟨_, rfl, foldl_putMember_perm hfold⟩

/-! Texts of containers. -/

lemma toChars_arr (items : List Json) : ∃ tail, (arr items).toChars = '[' :: tail := by
  cases items <;> exact ⟨_, rfl⟩

lemma toChars_obj (members : List (String × Json)) :
    ∃ tail, (obj members).toChars = '{' :: tail := by
  cases members <;> exact ⟨_, rfl⟩

/-- Every value but a double shows its type in its first character. -/
lemma toChars_eq_cons (h : ∀ x, j ≠ .float x) : ∃ c tail, j.toChars = c :: tail ∧
    isBlank c = false ∧ c ≠ ']' ∧ (c = 'n' → j = .null) := by
  cases j with
  | null => exact ⟨'n', _, rfl, rfl, by decide, fun _ => rfl⟩
  | bool b => cases b <;> exact ⟨_, _, rfl, rfl, by decide, fun h => absurd h (by decide)⟩
  | int i =>
    obtain ⟨c, tail, htext, hc⟩ := Reader.intChars_eq_cons i
    obtain ⟨hb, hclose, hn, -⟩ := Reader.ne_of_isNumberStart hc
    exact ⟨c, tail, htext, hb, hclose, fun h => absurd h hn⟩
  | float x => exact absurd rfl (h x)
  | str s => exact ⟨'"', _, rfl, rfl, by decide, fun h => absurd h (by decide)⟩
  | arr items =>
    obtain ⟨tail, htext⟩ := toChars_arr items
    exact ⟨'[', tail, htext, rfl, by decide, fun h => absurd h (by decide)⟩
  | obj members =>
    obtain ⟨tail, htext⟩ := toChars_obj members
    exact ⟨'{', tail, htext, rfl, by decide, fun h => absurd h (by decide)⟩

lemma ends_restItems (items : List Json) (rest : List Char) : Ends (restItems items ++ rest) := by
  cases items with
  | nil => exact ends_bracket _
  | cons item items => exact ends_comma _

lemma ends_restMembers (members : List (String × Json)) (rest : List Char) :
    Ends (restMembers members ++ rest) := by
  cases members with
  | nil => exact ends_brace _
  | cons member members => exact ends_comma _

lemma length_lt_restItems (items : List Json) : items.length < (restItems items).length := by
  induction items with
  | nil => decide
  | cons item items ih =>
    rw [restItems, List.length_cons, List.cons_append, List.length_cons, List.length_append]
    omega

lemma length_lt_restMembers (members : List (String × Json)) :
    members.length < (restMembers members).length := by
  induction members with
  | nil => decide
  | cons member members ih =>
    obtain ⟨key, value⟩ := member
    rw [restMembers]
    simp only [List.length_cons, List.length_append]
    omega

namespace Reader

variable {α : Type} {item : Reader α} {encode : α → Json} {list : List α} {a : α} {levels : Nat}

lemma run_itemsTail (ht : ∀ a ∈ list, Takes item (encode a).toChars a)
    (hf : ∀ a ∈ list, ∀ x, encode a ≠ .float x) {fuel : Nat} (hfuel : list.length < fuel)
    (rest : List Char) :
    StateT.run (itemsTail item fuel) (restItems (list.map encode) ++ rest) = .ok (list, rest) := by
  induction list generalizing fuel with
  | nil =>
    obtain ⟨fuel, rfl⟩ := Nat.exists_eq_succ_of_ne_zero (Nat.ne_of_gt hfuel)
    rw [itemsTail, List.map_nil, restItems, List.singleton_append,
      run_bind_ok (run_lookAhead rfl _)]
    rfl
  | cons a list ih =>
    obtain ⟨fuel, rfl⟩ := Nat.exists_eq_succ_of_ne_zero (Nat.ne_zero_of_lt hfuel)
    obtain ⟨hta, ht⟩ := List.forall_mem_cons.mp ht
    obtain ⟨hfa, hf⟩ := List.forall_mem_cons.mp hf
    obtain ⟨c, tail, htext, hblank, hclose, -⟩ := toChars_eq_cons hfa
    have hitem := hta _ (ends_restItems (list.map encode) rest)
    rw [htext, List.cons_append] at hitem
    rw [itemsTail, List.map_cons, restItems, htext]
    simp only [List.cons_append, List.append_assoc]
    rw [run_bind_ok (run_lookAhead rfl _)]
    refine (run_bind_ok (run_skipOne ..) _).trans ?_
    rw [run_bind_ok (run_lookAhead hblank _)]
    split
    · rename_i h
      exact absurd h (by simp)
    · rename_i h
      exact absurd (Option.some.inj h) hclose
    · rw [run_bind_ok hitem, run_bind_ok (ih ht hf (Nat.lt_of_succ_lt_succ hfuel))]
      rfl

/-- The items of a list come back one by one. -/
lemma takes_items (encode : α → Json) (ht : ∀ a ∈ list, Takes item (encode a).toChars a)
    (hf : ∀ a ∈ list, ∀ x, encode a ≠ .float x) :
    Takes (items item) (Json.arr (list.map encode)).toChars list := by
  intro rest _
  cases list with
  | nil => rfl
  | cons a list =>
    obtain ⟨hta, ht⟩ := List.forall_mem_cons.mp ht
    obtain ⟨hfa, hf⟩ := List.forall_mem_cons.mp hf
    obtain ⟨c, tail, htext, hblank, hclose, -⟩ := toChars_eq_cons hfa
    have hitem := hta _ (ends_restItems (list.map encode) rest)
    rw [htext, List.cons_append] at hitem
    rw [items, List.map_cons, toChars, htext]
    simp only [List.cons_append, List.append_assoc]
    rw [run_bind_ok (run_skipOne ..), run_bind_ok (run_lookAhead hblank _)]
    split
    · rename_i h
      exact absurd h (by simp)
    · rename_i h
      exact absurd (Option.some.inj h) hclose
    · have hfuel : list.length < (restItems (list.map encode) ++ rest).length + 1 := by
        have := length_lt_restItems (list.map encode)
        rw [List.length_map] at this
        rw [List.length_append]
        omega
      rw [run_bind_ok hitem, run_bind_ok (run_get _), run_bind_ok (run_itemsTail ht hf hfuel rest)]
      rfl

lemma run_key (name : String) (rest : List Char) :
    StateT.run key (quoted name ++ ':' :: rest) = .ok (name, rest) := by
  rw [quoted_append, key, run_bind_ok (run_skipOne ..), run_bind_ok (run_quotedRest ..),
    run_bind_ok (run_lookAhead rfl _)]
  rfl

lemma run_membersTail {value : Reader Json} {members : List (String × Json)}
    (ht : ∀ member ∈ members, Takes value member.2.toChars member.2) {fuel : Nat}
    (hfuel : members.length < fuel) (rest : List Char) :
    StateT.run (membersTail value fuel) (restMembers members ++ rest) = .ok (members, rest) := by
  induction members generalizing fuel with
  | nil =>
    obtain ⟨fuel, rfl⟩ := Nat.exists_eq_succ_of_ne_zero (Nat.ne_of_gt hfuel)
    rw [membersTail, restMembers, List.singleton_append, run_bind_ok (run_lookAhead rfl _)]
    rfl
  | cons member members ih =>
    obtain ⟨fuel, rfl⟩ := Nat.exists_eq_succ_of_ne_zero (Nat.ne_zero_of_lt hfuel)
    obtain ⟨name, first⟩ := member
    obtain ⟨hfirst, ht⟩ := List.forall_mem_cons.mp ht
    rw [membersTail, restMembers]
    simp only [List.cons_append, List.append_assoc]
    rw [run_bind_ok (run_lookAhead rfl _)]
    refine (run_bind_ok (run_skipOne ..) _).trans ?_
    rw [quoted_append, run_bind_ok (run_lookAhead isBlank_quote _), ← quoted_append]
    refine (run_bind_ok (run_key ..) _).trans ?_
    rw [run_bind_ok (hfirst _ (ends_restMembers members rest)),
      run_bind_ok (ih ht (Nat.lt_of_succ_lt_succ hfuel))]
    rfl

lemma takes_members {value : Reader Json} {members : List (String × Json)}
    (ht : ∀ member ∈ members, Takes value member.2.toChars member.2) :
    Takes (Reader.members value) (Json.obj members).toChars members := by
  intro rest _
  cases members with
  | nil => rfl
  | cons member members =>
    obtain ⟨name, first⟩ := member
    obtain ⟨hfirst, ht⟩ := List.forall_mem_cons.mp ht
    have hfuel : members.length < (restMembers members ++ rest).length + 1 := by
      have := length_lt_restMembers members
      rw [List.length_append]
      omega
    rw [Reader.members, toChars]
    simp only [List.cons_append, List.append_assoc]
    rw [run_bind_ok (run_skipOne ..), quoted_append, run_bind_ok (run_lookAhead isBlank_quote _),
      ← quoted_append]
    refine (run_bind_ok (run_key ..) _).trans ?_
    rw [run_bind_ok (hfirst _ (ends_restMembers members rest)), run_bind_ok (run_get _),
      run_bind_ok (run_membersTail ht hfuel rest)]
    rfl

/-! Values of any type. -/

lemma run_scalarOr_container {c : Char} (hc : c = '[' ∨ c = '{') (container : Char → Reader Json)
    (rest : List Char) :
    StateT.run (scalarOr container) (c :: rest) = StateT.run (container c) (c :: rest) := by
  rcases hc with rfl | rfl <;> rw [scalarOr, run_bind_ok (run_lookAhead rfl _)] <;> rfl

lemma takes_scalarOr_int {i : Int} (h : -0x8000000000000000 ≤ i ∧ i ≤ wordMax)
    (container : Char → Reader Json) :
    Takes (scalarOr container) (intChars i) (.int i) := by
  intro rest hr
  obtain ⟨c, tail, htext, hc⟩ := intChars_eq_cons i
  obtain ⟨hblank, -, hn, ht, hf, hq⟩ := ne_of_isNumberStart hc
  have hnumber := takes_number h.1 h.2 rest hr
  rw [htext, List.cons_append] at hnumber ⊢
  rw [scalarOr, run_bind_ok (run_lookAhead hblank _)]
  split
  · rename_i heq
    exact absurd heq (by simp)
  · rename_i heq
    exact absurd (Option.some.inj heq) hn
  · rename_i heq
    exact absurd (Option.some.inj heq) ht
  · rename_i heq
    exact absurd (Option.some.inj heq) hf
  · rename_i heq
    exact absurd (Option.some.inj heq) hq
  · rename_i heq
    obtain rfl := Option.some.inj heq
    rw [if_pos hc, run_bind_ok hnumber]
    rfl

/-- A value that is not a container is read the same at every level. -/
lemma takes_scalarOr (hs : Storable 0 j) (hx : j.Exact) (container : Char → Reader Json) :
    Takes (scalarOr container) j.toChars j := by
  intro rest hr
  cases hx with
  | null =>
    rw [scalarOr, toChars, List.cons_append, run_bind_ok (run_lookAhead rfl _)]
    exact (run_bind_ok (run_word ['n', 'u', 'l', 'l'] rest) _).trans rfl
  | bool b =>
    cases b with
    | true =>
      rw [scalarOr, toChars, List.cons_append, run_bind_ok (run_lookAhead rfl _)]
      exact (run_bind_ok (run_word ['t', 'r', 'u', 'e'] rest) _).trans rfl
    | false =>
      rw [scalarOr, toChars, List.cons_append, run_bind_ok (run_lookAhead rfl _)]
      exact (run_bind_ok (run_word ['f', 'a', 'l', 's', 'e'] rest) _).trans rfl
  | int i => exact takes_scalarOr_int hs container rest hr
  | str s =>
    rw [scalarOr, toChars, quoted_append, run_bind_ok (run_lookAhead isBlank_quote _)]
    refine (run_bind_ok (run_skipOne ..) _).trans ?_
    rw [run_bind_ok (run_quotedRest ..)]
    rfl
  | arr h => exact absurd hs (by simp [Storable])
  | obj h => exact absurd hs (by simp [Storable])

/-- A value of any type comes back from its text. -/
lemma takes_anyValue (hs : Storable levels j) (hx : j.Exact) :
    Takes (anyValue levels) j.toChars j := by
  induction levels generalizing j with
  | zero => exact takes_scalarOr hs hx _
  | succ levels ih =>
    cases hx with
    | arr h =>
      rename_i list
      intro rest hr
      have hitems := takes_items id (fun item hm => ih (hs item hm) (h item hm))
        (fun item hm => (h item hm).ne_float) rest hr
      rw [List.map_id] at hitems
      obtain ⟨tail, htext⟩ := toChars_arr list
      rw [htext, List.cons_append] at hitems ⊢
      rw [anyValue, run_scalarOr_container (.inl rfl), if_pos rfl, run_bind_ok hitems]
      rfl
    | obj h =>
      rename_i list
      intro rest hr
      have hmembers := takes_members (fun member hm => ih (hs.2 member hm) (h member hm)) rest hr
      obtain ⟨tail, htext⟩ := toChars_obj list
      rw [htext, List.cons_append] at hmembers ⊢
      rw [anyValue, run_scalarOr_container (.inr rfl), if_neg (by decide), run_bind_ok hmembers,
        ofMembers_of_ascending hs.1]
      rfl
    | null => exact takes_scalarOr (j := .null) trivial .null _
    | bool b => exact takes_scalarOr (j := .bool b) trivial (.bool b) _
    | int i => exact takes_scalarOr_int hs _
    | str s => exact takes_scalarOr (j := .str s) trivial (.str s) _

/-! Values of a given type. -/

/-- The reader gets `a` from the text of the value, which shows that it is not `null`. -/
structure Gets (reader : Reader α) (value : Json) (a : α) : Prop where
  takes : Takes reader value.toChars a
  ne_null : value ≠ .null
  ne_float : ∀ x, value ≠ .float x

lemma gets_text (s : String) : Gets text (.str s) s := ⟨takes_text s, nofun, nofun⟩

lemma gets_decimal (a : Decimal) : Gets decimal (.str a.toText) a :=
  ⟨takes_decimal a, nofun, nofun⟩

lemma gets_integer {i : Int} (h : IsInteger i) : Gets integer (.int i) i :=
  ⟨takes_integer h, nofun, nofun⟩

lemma gets_natural {n : Nat} (h : n < 2 ^ 64) : Gets (natural 64) (.ofNat n) n :=
  ⟨takes_natural h, nofun, nofun⟩

lemma gets_choice {table : List (String × α)} {name : String} (h : table.lookup name = some a)
    (levels : Nat) : Gets (choice table levels) (.str name) a := by
  refine ⟨fun rest hr => ?_, nofun, nofun⟩
  have htext := takes_text name rest hr
  rw [toChars]
  rw [quoted_append] at htext ⊢
  rw [choice, run_bind_ok (run_lookAhead isBlank_quote _)]
  refine (run_bind_ok htext _).trans ?_
  rw [h]
  rfl

lemma gets_list {item : (levels : Nat) → Reader α} (list : List α)
    (h : ∀ a ∈ list, Gets (item levels) (encode a) a) :
    Gets (Reader.list item (levels + 1)) (.arr (list.map encode)) list := by
  refine ⟨fun rest hr => ?_, nofun, nofun⟩
  have hitems := takes_items encode (fun a hm => (h a hm).takes) (fun a hm => (h a hm).ne_float)
    rest hr
  obtain ⟨tail, htext⟩ := toChars_arr (list.map encode)
  rw [htext, List.cons_append] at hitems ⊢
  rw [Reader.list, run_bind_ok (run_lookAhead rfl _)]
  exact hitems

lemma takes_nullable {reader : Reader α} {o : Option α}
    (h : ∀ a ∈ o, Gets reader (encode a) a) :
    Takes (nullable reader) (Json.ofOption encode o).toChars o := by
  intro rest hr
  cases o with
  | none =>
    rw [nullable, Json.ofOption, toChars, List.cons_append, run_bind_ok (run_lookAhead rfl _)]
    exact (run_bind_ok (run_word ['n', 'u', 'l', 'l'] rest) _).trans rfl
  | some a =>
    have hg := h a rfl
    obtain ⟨c, tail, htext, hblank, -, hnull⟩ := toChars_eq_cons hg.ne_float
    have hread := hg.takes rest hr
    rw [Json.ofOption]
    rw [htext, List.cons_append] at hread ⊢
    rw [nullable, run_bind_ok (run_lookAhead hblank _)]
    split
    · rename_i heq
      exact absurd (hnull (Option.some.inj heq)) hg.ne_null
    · rw [run_bind_ok hread]
      rfl

/-- A text that consists of the value is read as `a`. -/
lemma Gets.read_render {reader : (levels : Nat) → Reader α} {value : Json}
    (h : Gets (reader maxNesting) value a) : Json.read reader value.render = .ok a := by
  have hread : StateT.run (reader maxNesting) value.toChars = .ok (a, []) := by
    have hread := h.takes [] ends_nil
    rwa [List.append_nil] at hread
  rw [Json.read, Reader.run, render, String.toList_ofList, hread]
  rfl

end Reader

end MarketFeed.Json
