import MarketFeed.Proofs.Json.Values

/-!
# What readers yield

Whatever a text holds, what a reader makes of it can be written again: integers have 64 bits,
objects are in the order of their keys, and containers are nested as deep as the reader follows.
-/

namespace MarketFeed.Json

lemma absorb_le {n : Nat} (h : n ≤ wordMax) (digits : List Char) :
    (absorb n digits).1 ≤ wordMax := by
  induction digits generalizing n with
  | nil => exact h
  | cons c digits ih =>
    rw [absorb]
    split_ifs with hlonger
    · exact ih hlonger
    · exact h

/-! Objects are in the order of their keys. -/

variable {name : String} {value : Json} {members : List (String × Json)}

lemma mem_putMember {member : String × Json} (h : member ∈ putMember name value members) :
    member = (name, value) ∨ member ∈ members := by
  induction members with
  | nil => exact .inl (List.mem_singleton.mp h)
  | cons first rest ih =>
    rw [putMember] at h
    split_ifs at h with hlt heq
    · exact List.mem_cons.mp h
    · exact (List.mem_cons.mp h).imp_right (List.mem_cons_of_mem _)
    · rcases List.mem_cons.mp h with rfl | h
      · exact .inr (List.mem_cons_self ..)
      · exact (ih h).imp_right (List.mem_cons_of_mem _)

lemma ascending_putMember (h : members.Pairwise fun a b => a.1 < b.1) :
    (putMember name value members).Pairwise fun a b => a.1 < b.1 := by
  induction members with
  | nil => exact List.pairwise_singleton ..
  | cons first rest ih =>
    obtain ⟨hfirst, hrest⟩ := List.pairwise_cons.mp h
    rw [putMember]
    split_ifs with hlt heq
    · refine List.pairwise_cons.mpr ⟨fun member hm => ?_, h⟩
      rcases List.mem_cons.mp hm with rfl | hm
      · exact hlt
      · exact hlt.trans (hfirst member hm)
    · refine List.pairwise_cons.mpr ⟨fun member hm => ?_, hrest⟩
      rw [heq]
      exact hfirst member hm
    · have hgt : first.1 < name := lt_of_le_of_ne (not_lt.mp hlt) (Ne.symm heq)
      refine List.pairwise_cons.mpr ⟨fun member hm => ?_, ih hrest⟩
      rcases mem_putMember hm with rfl | hm
      · exact hgt
      · exact hfirst member hm

lemma storable_ofMembers {levels : Nat} (h : ∀ member ∈ members, Storable levels member.2) :
    Storable (levels + 1) (ofMembers members) := by
  have hfold : ∀ placed : List (String × Json), Storable (levels + 1) (.obj placed) →
      Storable (levels + 1)
        (.obj (members.foldl (fun acc member => putMember member.1 member.2 acc) placed)) := by
    induction members with
    | nil => exact fun _ hplaced => hplaced
    | cons member rest ih =>
      obtain ⟨hmember, hrest⟩ := List.forall_mem_cons.mp h
      rintro placed ⟨hascending, hstorable⟩
      refine ih hrest _ ⟨ascending_putMember hascending, fun other hm => ?_⟩
      rcases mem_putMember hm with rfl | hm
      · exact hmember
      · exact hstorable other hm
  exact hfold [] ⟨List.Pairwise.nil, fun _ hm => absurd hm List.not_mem_nil⟩

namespace Reader

variable {α β ρ : Type} {reader : Reader α} {P Q : α → Prop} {levels : Nat}

/-- Whatever text the reader takes, it makes something with this property of it. -/
def Yields (reader : Reader α) (P : α → Prop) : Prop :=
  ∀ before a rest, StateT.run reader before = .ok (a, rest) → P a

lemma yields_true (reader : Reader α) : Yields reader fun _ => True := fun _ _ _ _ => trivial

lemma yields_pure {a : α} (h : P a) : Yields (pure a) P := by
  intro before b rest hr
  obtain ⟨rfl, -⟩ := Prod.mk.inj (Except.ok.inj hr)
  exact h

lemma yields_throw (fault : Fault) : Yields (throw fault : Reader α) P :=
  fun _ _ _ hr => nomatch hr

lemma Yields.bind {R : β → Prop} {next : α → Reader β} (h : Yields reader P)
    (hn : ∀ a, P a → Yields (next a) R) : Yields (reader >>= next) R := by
  intro before b rest hr
  obtain ⟨a, between, ha, hb⟩ := run_of_bind_eq_ok hr
  exact hn a (h _ _ _ ha) _ _ _ hb

/-- What a step yields does not matter. -/
lemma Yields.after {R : β → Prop} {next : α → Reader β} (hn : ∀ a, Yields (next a) R) :
    Yields (reader >>= next) R :=
  (yields_true reader).bind fun a _ => hn a

lemma yields_failHere : Yields (failHere : Reader α) P := by
  refine Yields.after fun rest => ?_
  split <;> exact yields_throw _

lemma yields_mismatch : Yields (mismatch : Reader α) P := by
  refine Yields.after fun next => ?_
  split
  · exact yields_throw _
  · exact Yields.after fun _ => yields_throw _
  · exact Yields.after fun _ => yields_throw _
  · exact Yields.after fun _ => yields_throw _
  · exact Yields.after fun _ => Yields.after fun _ => yields_throw _
  · split_ifs
    · exact Yields.after fun _ => yields_throw _
    · exact yields_throw _
    · exact yields_throw _

/-! Numbers. -/

/-- An integer in a text has 64 bits. -/
def IsWord : Number → Prop
  | .int i => -0x8000000000000000 ≤ i ∧ i ≤ wordMax
  | .float _ => True

lemma yields_number : Yields number IsWord := by
  refine Yields.after fun negative => Yields.after fun digits => ?_
  split
  · exact yields_failHere
  · exact yields_throw _
  · have hn := absorb_le (Nat.zero_le wordMax) digits
    generalize absorb 0 digits = taken at hn ⊢
    obtain ⟨n, dropped⟩ := taken
    dsimp only at hn ⊢
    have hword : (wordMax : Int) = 0xFFFFFFFFFFFFFFFF := rfl
    refine Yields.after fun rest => ?_
    split_ifs with _ _ hsmall
    · exact yields_pure ⟨by omega, by omega⟩
    · exact yields_pure ⟨by omega, by omega⟩
    · exact yields_pure trivial
    · exact Yields.after fun _ => yields_pure trivial

lemma yields_numberOf {select : Number → Option α}
    (h : ∀ number a, select number = some a → P a) : Yields (numberOf select) P := by
  refine Yields.after fun next => ?_
  split
  · split_ifs
    · refine Yields.after fun number => ?_
      split
      · rename_i a hs
        exact yields_pure (h number a hs)
      · exact yields_throw _
    · exact yields_mismatch
  · exact yields_throw _

lemma yields_integer : Yields integer IsInteger := by
  refine yields_numberOf fun number i hs => ?_
  cases number with
  | int j =>
    dsimp only at hs
    split_ifs at hs with hrange
    obtain rfl := Option.some.inj hs
    exact hrange
  | float x => exact absurd hs (by simp)

lemma yields_natural : Yields (natural 64) (· < 2 ^ 64) := by
  refine yields_numberOf fun number n hs => ?_
  cases number with
  | int j =>
    dsimp only at hs
    split_ifs at hs with hrange
    obtain rfl := Option.some.inj hs
    exact hrange.2
  | float x => exact absurd hs (by simp)

/-! Lists and objects. -/

lemma yields_itemsTail (h : Yields reader P) (fuel : Nat) :
    Yields (itemsTail reader fuel) fun list => ∀ a ∈ list, P a := by
  induction fuel with
  | zero => exact yields_throw _
  | succ fuel ih =>
    refine Yields.after fun next => ?_
    split
    · exact Yields.after fun _ => yields_pure fun _ hm => absurd hm List.not_mem_nil
    · refine Yields.after fun _ => Yields.after fun next => ?_
      split
      · exact yields_throw _
      · exact yields_throw _
      · exact h.bind fun a ha => ih.bind fun list hlist =>
          yields_pure (List.forall_mem_cons.mpr ⟨ha, hlist⟩)
    · exact yields_failHere

lemma yields_items (h : Yields reader P) :
    Yields (items reader) fun list => ∀ a ∈ list, P a := by
  refine Yields.after fun _ => Yields.after fun next => ?_
  split
  · exact yields_throw _
  · exact Yields.after fun _ => yields_pure fun _ hm => absurd hm List.not_mem_nil
  · exact h.bind fun a ha => Yields.after fun rest =>
      (yields_itemsTail h _).bind fun list hlist =>
        yields_pure (List.forall_mem_cons.mpr ⟨ha, hlist⟩)

lemma yields_membersTail (h : Yields reader P) (fuel : Nat) :
    Yields (membersTail reader fuel) fun members => ∀ member ∈ members, P member.2 := by
  induction fuel with
  | zero => exact yields_throw _
  | succ fuel ih =>
    refine Yields.after fun next => ?_
    split
    · exact Yields.after fun _ => yields_pure fun _ hm => absurd hm List.not_mem_nil
    · refine Yields.after fun _ => Yields.after fun next => ?_
      split
      · exact Yields.after fun name => h.bind fun a ha => ih.bind fun members hmembers =>
          yields_pure (List.forall_mem_cons.mpr ⟨ha, hmembers⟩)
      · exact yields_failHere
    · exact yields_failHere

lemma yields_members (h : Yields reader P) :
    Yields (Reader.members reader) fun members => ∀ member ∈ members, P member.2 := by
  refine Yields.after fun _ => Yields.after fun next => ?_
  split
  · exact Yields.after fun _ => yields_pure fun _ hm => absurd hm List.not_mem_nil
  · exact Yields.after fun name => h.bind fun a ha => Yields.after fun rest =>
      (yields_membersTail h _).bind fun members hmembers =>
        yields_pure (List.forall_mem_cons.mpr ⟨ha, hmembers⟩)
  · exact yields_failHere

/-! Values of any type. -/

lemma yields_scalarOr {container : Char → Reader Json}
    (h : ∀ c, Yields (container c) (Storable levels)) :
    Yields (scalarOr container) (Storable levels) := by
  have hscalar : ∀ j : Json, Storable 0 j → Storable levels j := by
    intro j hj
    cases levels with
    | zero => exact hj
    | succ levels =>
      cases j with
      | arr items => exact absurd hj (by simp [Storable])
      | obj members => exact absurd hj (by simp [Storable])
      | _ => exact hj
  refine Yields.after fun next => ?_
  split
  · exact yields_throw _
  · exact Yields.after fun _ => yields_pure (hscalar .null trivial)
  · exact Yields.after fun _ => yields_pure (hscalar (.bool true) trivial)
  · exact Yields.after fun _ => yields_pure (hscalar (.bool false) trivial)
  · exact Yields.after fun _ => Yields.after fun s => yields_pure (hscalar (.str s) trivial)
  · split_ifs
    · refine yields_number.bind fun number hword => yields_pure (hscalar _ ?_)
      cases number with
      | int i => exact hword
      | float x => trivial
    · exact h _
    · exact yields_throw _

lemma yields_anyValue (levels : Nat) : Yields (anyValue levels) (Storable levels) := by
  induction levels with
  | zero => exact yields_scalarOr fun _ => yields_throw _
  | succ levels ih =>
    refine yields_scalarOr fun c => ?_
    split_ifs
    · exact (yields_items ih).bind fun items hitems => yields_pure hitems
    · exact (yields_members ih).bind fun members hmembers =>
        yields_pure (storable_ofMembers hmembers)

/-! Values of a given type. -/

lemma yields_nullable (h : Yields reader P) : Yields (nullable reader) fun o => ∀ a ∈ o, P a := by
  refine Yields.after fun next => ?_
  split
  · exact Yields.after fun _ => yields_pure fun _ hm => absurd hm (by simp)
  · refine h.bind fun a ha => yields_pure ?_
    rintro _ ⟨rfl⟩
    exact ha

lemma yields_list {item : (levels : Nat) → Reader α} (h : Yields (item levels) P) :
    Yields (Reader.list item (levels + 1)) fun list => ∀ a ∈ list, P a := by
  refine Yields.after fun next => ?_
  split
  · exact yields_items h
  · exact yields_mismatch

/-! Records. -/

variable {fields : List (RecordField ρ)} {Inv : ρ → Prop}

lemma yields_fieldsByName
    (h : ∀ field ∈ fields, ∀ record, Inv record → Yields (field.read levels record) Inv)
    (fuel : Nat) (seen : List String) (first : Bool) {record : ρ} (hr : Inv record) :
    Yields (fieldsByName fields levels fuel seen first record) fun result => Inv result.2 := by
  induction fuel generalizing seen first record with
  | zero => exact yields_throw _
  | succ fuel ih =>
    refine Yields.after fun more => ?_
    split_ifs
    · exact yields_pure hr
    · refine Yields.after fun _ => Yields.after fun name => ?_
      dsimp only
      split_ifs
      · exact Yields.bind (P := fun _ => False) (yields_throw _) fun _ h => h.elim
      · refine Yields.after fun next => ?_
        split
        · refine Yields.after fun _ => ?_
          split
          · rename_i field hfield
            exact (h field (List.mem_of_find?_eq_some hfield) record hr).bind fun changed hc =>
              ih _ _ hc
          · exact Yields.after fun _ => ih _ _ hr
        · exact Yields.bind (P := fun _ => False) yields_failHere fun _ h => h.elim

lemma yields_fieldsInOrder
    (h : ∀ field ∈ fields, ∀ record, Inv record → Yields (field.read levels record) Inv)
    (first : Bool) {record : ρ} (hr : Inv record) :
    Yields (fieldsInOrder levels fields first record) Inv := by
  induction fields generalizing first record with
  | nil =>
    refine Yields.after fun next => ?_
    split
    · exact Yields.after fun _ => yields_pure hr
    · exact yields_throw _
    · exact yields_failHere
  | cons field rest ih =>
    obtain ⟨hfield, hrest⟩ := List.forall_mem_cons.mp h
    refine Yields.after fun next => ?_
    split
    · split_ifs
      · exact ih hrest _ hr
      · exact yields_throw _
    · split_ifs
      · exact (hfield record hr).bind fun changed hc => ih hrest _ hc
      · refine Yields.after fun _ => Yields.after fun next => ?_
        split
        · exact yields_throw _
        · exact yields_throw _
        · exact (hfield record hr).bind fun changed hc => ih hrest _ hc
      · exact yields_throw _
    · exact yields_throw _

/-- What holds of the initial record and survives every field holds of all records that are read. -/
lemma yields_record {initial : ρ} (hi : Inv initial)
    (h : ∀ field ∈ fields, ∀ record, Inv record → Yields (field.read levels record) Inv) :
    Yields (record fields initial (levels + 1)) Inv := by
  refine Yields.after fun next => ?_
  split
  · refine Yields.after fun _ => Yields.after fun rest => ?_
    refine (yields_fieldsByName h _ _ _ hi).bind fun result hresult => ?_
    obtain ⟨seen, record⟩ := result
    dsimp only
    split_ifs
    · exact yields_pure hresult
    · exact yields_throw _
  · exact Yields.after fun _ => yields_fieldsInOrder h _ hi
  · exact yields_mismatch

/-! Single fields. -/

variable {name : String} {item : (levels : Nat) → Reader α}

lemma yields_required {store : ρ → α → ρ} (h : Yields (item levels) P)
    (hs : ∀ record a, Inv record → P a → Inv (store record a)) (record : ρ) (hr : Inv record) :
    Yields ((RecordField.required name item store).read levels record) Inv :=
  h.bind fun a ha => yields_pure (hs record a hr ha)

lemma yields_optional {store : ρ → Option α → ρ} (h : Yields (item levels) P)
    (hs : ∀ record o, Inv record → (∀ a ∈ o, P a) → Inv (store record o)) (record : ρ)
    (hr : Inv record) : Yields ((RecordField.optional name item store).read levels record) Inv :=
  (yields_nullable h).bind fun o ho => yields_pure (hs record o hr ho)

lemma yields_defaulted {store : ρ → α → ρ} (h : Yields (item levels) P)
    (hs : ∀ record a, Inv record → P a → Inv (store record a)) (record : ρ) (hr : Inv record) :
    Yields ((RecordField.defaulted name item store).read levels record) Inv :=
  h.bind fun a ha => yields_pure (hs record a hr ha)

/-- A field that has no part in what holds of a record. -/
lemma yields_required_of_kept {store : ρ → α → ρ}
    (hs : ∀ record a, Inv record → Inv (store record a)) (record : ρ) (hr : Inv record) :
    Yields ((RecordField.required name item store).read levels record) Inv :=
  yields_required (yields_true _) (fun record a hr _ => hs record a hr) record hr

lemma yields_optional_of_kept {store : ρ → Option α → ρ}
    (hs : ∀ record o, Inv record → Inv (store record o)) (record : ρ) (hr : Inv record) :
    Yields ((RecordField.optional name item store).read levels record) Inv :=
  yields_optional (yields_true _) (fun record o hr _ => hs record o hr) record hr

lemma Yields.of_read {a : α} {text : String} (h : Yields (item maxNesting) P)
    (hr : Json.read item text = .ok a) : P a := by
  rw [Json.read, run] at hr
  cases hb : StateT.run (item maxNesting) text.toList with
  | error fault =>
    rw [hb] at hr
    cases hr
  | ok result =>
    rw [hb] at hr
    have hend : (if result.2.all isBlank then Except.ok result.1 else .error Fault.malformed) =
        Except.ok a := hr
    split_ifs at hend
    exact Except.ok.inj hend ▸ h _ _ _ hb

end Reader

end MarketFeed.Json
