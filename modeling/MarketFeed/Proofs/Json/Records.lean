import MarketFeed.Proofs.Json.Values
import Mathlib.Data.List.Forall2
import Mathlib.Data.List.Pairwise

/-!
# Records by the names of their fields

A record comes back from the object of its members, in whatever order they stand: each member is
stored by the field of its name, and what is stored for one field has nothing to do with the others.
-/

namespace MarketFeed.Json

namespace Reader

variable {ρ α : Type} {fields : List (RecordField ρ)} {levels : Nat}
  {members : List (String × Json)} {changes : List (ρ → ρ)} {name : String} {value : Json}
  {change : ρ → ρ} {seen : List String}

/-- The field of its name stores the member into every record, as `change` does. -/
def Stores (fields : List (RecordField ρ)) (levels : Nat) (member : String × Json)
    (change : ρ → ρ) : Prop :=
  ∃ field, fields.find? (·.name == member.1) = some field ∧
    ∀ record, Takes (field.read levels record) member.2.toChars (change record)

lemma run_nextMember_brace (first : Bool) (rest : List Char) :
    StateT.run (nextMember first) ('}' :: rest) = .ok (false, rest) := by
  rw [nextMember, run_bind_ok (run_lookAhead rfl _)]
  rfl

lemma run_nextMember_first (rest : List Char) :
    StateT.run (nextMember true) ('"' :: rest) = .ok (true, '"' :: rest) := by
  rw [nextMember, run_bind_ok (run_lookAhead rfl _)]
  rfl

lemma run_nextMember_comma (rest : List Char) :
    StateT.run (nextMember false) (',' :: '"' :: rest) = .ok (true, '"' :: rest) := by
  rw [nextMember, run_bind_ok (run_lookAhead rfl _)]
  refine (run_bind_ok (run_skipOne ..) _).trans ?_
  rw [run_bind_ok (run_lookAhead rfl _)]
  rfl

/-- A member of a name that was not seen yet is stored. -/
lemma run_fieldsByName_member {first : Bool} {before rest : List Char}
    (hn : StateT.run (nextMember first) before =
      .ok (true, quoted name ++ ':' :: (value.toChars ++ rest)))
    (hs : Stores fields levels (name, value) change) (hr : Ends rest) (hseen : name ∉ seen)
    (fuel : Nat) (record : ρ) :
    StateT.run (fieldsByName fields levels (fuel + 1) seen first record) before =
      StateT.run (fieldsByName fields levels fuel (name :: seen) false (change record)) rest := by
  obtain ⟨field, hfind, hread⟩ := hs
  dsimp only at hfind hread
  rw [quoted_append] at hn
  rw [fieldsByName, run_bind_ok hn]
  dsimp only
  rw [if_neg (by simp), run_bind_ok (run_skipOne ..), run_bind_ok (run_quotedRest ..), hfind]
  rw [if_neg (by simpa using hseen), run_bind_ok (run_lookAhead rfl _)]
  refine (run_bind_ok (run_skipOne ..) _).trans ?_
  exact run_bind_ok (hread record rest hr) _

lemma run_fieldsByName (hs : List.Forall₂ (Stores fields levels) members changes)
    (hn : (members.map Prod.fst).Nodup) (hseen : ∀ member ∈ members, member.1 ∉ seen) {fuel : Nat}
    (hfuel : members.length < fuel) (record : ρ) (rest : List Char) :
    StateT.run (fieldsByName fields levels fuel seen false record) (restMembers members ++ rest) =
      .ok (((members.map Prod.fst).reverse ++ seen,
        changes.foldl (fun record change => change record) record), rest) := by
  induction hs generalizing seen fuel record with
  | nil =>
    obtain ⟨fuel, rfl⟩ := Nat.exists_eq_succ_of_ne_zero (Nat.ne_of_gt hfuel)
    rw [fieldsByName, restMembers, List.singleton_append, run_bind_ok (run_nextMember_brace ..)]
    rfl
  | @cons member change members changes hstored hs ih =>
    obtain ⟨fuel, rfl⟩ := Nat.exists_eq_succ_of_ne_zero (Nat.ne_zero_of_lt hfuel)
    obtain ⟨name, value⟩ := member
    obtain ⟨hfirst, hseen⟩ := List.forall_mem_cons.mp hseen
    rw [List.map_cons, List.nodup_cons] at hn
    have hnext : StateT.run (nextMember false) (restMembers ((name, value) :: members) ++ rest) =
        .ok (true, quoted name ++ ':' :: (value.toChars ++ (restMembers members ++ rest))) := by
      rw [restMembers]
      simp only [List.cons_append, List.append_assoc]
      rw [quoted_append, run_nextMember_comma]
    have hrest : ∀ member ∈ members, member.1 ∉ name :: seen := fun member hm => by
      have hname : member.1 ∈ members.map Prod.fst := List.mem_map_of_mem hm
      rw [List.mem_cons, not_or]
      exact ⟨fun he => hn.1 (he ▸ hname), hseen member hm⟩
    rw [run_fieldsByName_member hnext hstored (ends_restMembers members rest) hfirst,
      ih hn.2 hrest (Nat.lt_of_succ_lt_succ hfuel)]
    simp

/-- A record comes back from its members. -/
lemma takes_members_of_record (hs : List.Forall₂ (Stores fields levels) members changes)
    (hn : (members.map Prod.fst).Nodup)
    (hr : ∀ field ∈ fields, field.name ∈ members.map Prod.fst) (initial : ρ) :
    Takes (record fields initial (levels + 1)) (Json.obj members).toChars
      (changes.foldl (fun record change => change record) initial) := by
  intro rest _
  have hall : ∀ seen : List String, (∀ field ∈ fields, field.name ∈ seen) →
      (fields.all fun f => f.presence ≠ .required || seen.contains f.name) = true := by
    intro seen hseen
    rw [List.all_eq_true]
    intro field hm
    simp [hseen field hm]
  cases hs with
  | nil =>
    rw [record, toChars, List.cons_append, run_bind_ok (run_lookAhead rfl _)]
    refine (run_bind_ok (run_skipOne ..) _).trans ?_
    have hbody : StateT.run
        (fieldsByName fields levels ((['}'] ++ rest).length + 1) [] true initial) (['}'] ++ rest) =
          .ok (([], initial), rest) := by
      rw [fieldsByName, List.singleton_append, run_bind_ok (run_nextMember_brace ..)]
      rfl
    rw [run_bind_ok (run_get _), run_bind_ok hbody]
    dsimp only
    rw [hall [] hr]
    rfl
  | @cons member change members changes hstored hs =>
    obtain ⟨name, value⟩ := member
    have hnext : StateT.run (nextMember true)
        (quoted name ++ ':' :: (value.toChars ++ (restMembers members ++ rest))) =
          .ok (true, quoted name ++ ':' :: (value.toChars ++ (restMembers members ++ rest))) := by
      rw [quoted_append, run_nextMember_first]
    rw [List.map_cons, List.nodup_cons] at hn
    have hseen : ∀ member ∈ members, member.1 ∉ [name] := fun member hm => by
      have hname : member.1 ∈ members.map Prod.fst := List.mem_map_of_mem hm
      rw [List.mem_singleton]
      exact fun he => hn.1 (he ▸ hname)
    have hbody : ∀ fuel, members.length < fuel →
        StateT.run (fieldsByName fields levels (fuel + 1) [] true initial)
          (quoted name ++ ':' :: (value.toChars ++ (restMembers members ++ rest))) = _ :=
      fun fuel hfuel => (run_fieldsByName_member hnext hstored (ends_restMembers members rest)
        List.not_mem_nil fuel initial).trans
          (run_fieldsByName hs hn.2 hseen hfuel (change initial) rest)
    rw [record, toChars]
    simp only [List.cons_append, List.append_assoc]
    rw [run_bind_ok (run_lookAhead rfl _)]
    refine (run_bind_ok (run_skipOne ..) _).trans ?_
    have hlength := length_lt_restMembers members
    rw [run_bind_ok (run_get _), run_bind_ok (hbody _ (by simp; omega))]
    dsimp only
    have hnames : ∀ field ∈ fields, field.name ∈ (members.map Prod.fst).reverse ++ [name] :=
      fun field hm => by
        rw [List.mem_append, List.mem_reverse, List.mem_singleton]
        exact (List.mem_cons.mp (hr field hm)).symm
    rw [hall _ hnames]
    rfl

/-! The members of all fields. -/

/-- What the fields of a record are put down as, and the changes that the members stand for. -/
inductive Written (levels : Nat) :
    List (RecordField ρ) → List (String × Json) → List (ρ → ρ) → Prop
  | nil : Written levels [] [] []
  | cons {field : RecordField ρ} {fields : List (RecordField ρ)} {value : Json}
      {members : List (String × Json)} {change : ρ → ρ} {changes : List (ρ → ρ)}
      (h : ∀ record, Takes (field.read levels record) value.toChars (change record))
      (rest : Written levels fields members changes) :
      Written levels (field :: fields) ((field.name, value) :: members) (change :: changes)

lemma Written.names (h : Written levels fields members changes) :
    members.map Prod.fst = fields.map (·.name) := by
  induction h with
  | nil => rfl
  | cons h rest ih => rw [List.map_cons, List.map_cons, ih]

lemma find?_of_mem {field : RecordField ρ} (hn : (fields.map (·.name)).Nodup)
    (hm : field ∈ fields) : fields.find? (·.name == field.name) = some field := by
  induction fields with
  | nil => exact absurd hm List.not_mem_nil
  | cons first rest ih =>
    rw [List.map_cons, List.nodup_cons] at hn
    rcases List.mem_cons.mp hm with rfl | hm
    · exact List.find?_cons_of_pos (by simp)
    · have hne : first.name ≠ field.name := fun he => hn.1 (he ▸ List.mem_map_of_mem hm)
      rw [List.find?_cons_of_neg (by simpa using hne)]
      exact ih hn.2 hm

lemma Written.stores {part : List (RecordField ρ)} (h : Written levels part members changes)
    (hf : ∀ field ∈ part, fields.find? (·.name == field.name) = some field) :
    List.Forall₂ (Stores fields levels) members changes := by
  induction h with
  | nil => exact .nil
  | cons hread rest ih =>
    obtain ⟨hfirst, hf⟩ := List.forall_mem_cons.mp hf
    exact .cons ⟨_, hfirst, hread⟩ (ih hf)

/-- A record comes back from its members in whatever layout, if it does not matter in which order
they are stored. -/
lemma gets_record (layout : Layout) (h : Written levels fields members changes)
    (hn : (fields.map (·.name)).Nodup)
    (hc : changes.Pairwise fun f g => ∀ record, f (g record) = g (f record)) (initial : ρ) :
    Gets (record fields initial (levels + 1)) (layout.object members)
      (changes.foldl (fun record change => change record) initial) := by
  have hnames := h.names
  obtain ⟨placed, hobject, hperm⟩ := layout.object_perm (hnames ▸ hn)
  rw [hobject]
  refine ⟨?_, nofun, nofun⟩
  have hstores := h.stores fun field hm => find?_of_mem hn hm
  obtain ⟨moved, hmoved, hmovedPerm⟩ := List.perm_comp_forall₂ hperm hstores
  have hplaced := hperm.map Prod.fst
  have hcommute : ∀ f ∈ changes, ∀ g ∈ changes, ∀ record, f (g record) = g (f record) :=
    fun f hf g hg => List.Pairwise.forall_of_forall_of_flip (fun _ _ _ => rfl) hc
      (hc.imp fun hfg record => (hfg record).symm) hf hg
  have hfold : moved.foldl (fun record change => change record) initial =
      changes.foldl (fun record change => change record) initial := by
    refine (hmovedPerm.symm.foldl_eq' (fun f hf g hg record => ?_) initial).symm
    exact (hcommute g hg f hf record)
  rw [← hfold]
  refine takes_members_of_record hmoved (hplaced.nodup_iff.mpr (hnames ▸ hn)) ?_ initial
  intro field hm
  rw [hplaced.mem_iff, hnames]
  exact List.mem_map_of_mem hm

/-! Single fields. -/

lemma takes_required {reader : (levels : Nat) → Reader α} {a : α}
    (h : Gets (reader levels) value a) {name : String} {store : ρ → α → ρ} (record : ρ) :
    Takes ((RecordField.required name reader store).read levels record) value.toChars
      (store record a) := by
  intro rest hr
  rw [RecordField.required, run_bind_ok (h.takes rest hr)]
  rfl

lemma takes_optional {r : (levels : Nat) → Reader α} {encode : α → Json} (o : Option α)
    (h : ∀ a ∈ o, Gets (r levels) (encode a) a) {name : String} {store : ρ → Option α → ρ}
    (record : ρ) :
    Takes ((RecordField.optional name r store).read levels record)
      (Json.ofOption encode o).toChars (store record o) := by
  intro rest hr
  rw [RecordField.optional, run_bind_ok (takes_nullable h rest hr)]
  rfl

lemma takes_defaulted {reader : (levels : Nat) → Reader α} {a : α}
    (h : Takes (reader levels) value.toChars a) {name : String} {store : ρ → α → ρ} (record : ρ) :
    Takes ((RecordField.defaulted name reader store).read levels record) value.toChars
      (store record a) := by
  intro rest hr
  rw [RecordField.defaulted, run_bind_ok (h rest hr)]
  rfl

end Reader

end MarketFeed.Json
