import FundsTransfer.Json.Decoder
import FundsTransfer.Json.Row
import FundsTransfer.Proofs.Json.Text
import Mathlib.Data.List.Forall2

/-!
# Values that are read back

A way of writing values and a way of reading them belong together when every value that can
be written is read back, and every value that is read can be written.  `Faithful` is both of
this, with a predicate that says which values can be written.  The first half is about the nodes
of what is written.  Together with the text of nodes it says that a text is read back, and
with the second half that it does not matter how a value was spelled when it was read first.

Both halves go through the fields of an object as its shape does.  For the first, `Writes` says that
members are what a shape asks for.  For the second, `Yields` says what a shape makes out of whatever
it is given.
-/

namespace FundsTransfer.Json

variable {α β : Type}

/-- Whatever can be written is read back, and whatever is read can be written. -/
structure Faithful (encode : α → Json) (decoder : Decoder α) (Valid : α → Prop) : Prop where
  decode_encode : ∀ a, Valid a → decoder (encode a).toNode = .ok a
  valid : ∀ n a, decoder n = .ok a → Valid a

/-- What comes last in a sequence that succeeds has succeeded on the results before. -/
theorem ok_of_bind {ε β γ : Type} {x : Except ε β} {f : β → Except ε γ} {c : γ}
    (h : x >>= f = .ok c) : ∃ b, x = .ok b ∧ f b = .ok c := by
  cases x with
  | error e => cases h
  | ok b => exact ⟨b, rfl, h⟩

/-! ## Texts -/

/-- The value of a text is that of its node. -/
theorem node_of_decode {decoder : Decoder α} {s : String} {a : α} (h : decode decoder s = .ok a) :
    decoder (readNode s.toList).1 = .ok a := by
  obtain ⟨b, hnode, hrest⟩ := ok_of_bind (x := decoder (readNode s.toList).1) h
  split at hrest
  · cases hrest
    exact hnode
  · cases hrest

namespace Faithful

variable {encode : α → Json} {decoder : Decoder α} {Valid : α → Prop}

end Faithful

/-! ## Values that may be absent, and lists -/

theorem decoder_of_optional {decoder : Decoder α} {n : Node} {a : α}
    (h : Decoder.optional decoder n = .ok (some a)) : decoder n = .ok a := by
  unfold Decoder.optional at h
  split at h
  · cases h
  · cases hn : decoder n with
    | error e =>
        rw [hn] at h
        cases h
    | ok b =>
        rw [hn] at h
        cases h
        rfl

theorem mapM_map {decoder : Decoder α} {f : α → Node} {as : List α}
    (h : ∀ a ∈ as, decoder (f a) = .ok a) : (as.map f).mapM decoder = .ok as := by
  induction as with
  | nil => rfl
  | cons a as ih =>
      have hrest := ih fun b hb => h b (List.mem_cons_of_mem _ hb)
      rw [List.map_cons, List.mapM_cons, h a List.mem_cons_self, hrest]
      rfl

theorem exists_of_mapM {decoder : Decoder α} {nodes : List Node} {as : List α}
    (h : nodes.mapM decoder = .ok as) : ∀ a ∈ as, ∃ n, decoder n = .ok a := by
  induction nodes generalizing as with
  | nil =>
      cases h
      simp
  | cons n nodes ih =>
      rw [List.mapM_cons] at h
      obtain ⟨b, hn, h⟩ := ok_of_bind h
      obtain ⟨bs, hnodes, h⟩ := ok_of_bind h
      cases h
      intro a ha
      rcases List.mem_cons.1 ha with rfl | ha
      · exact ⟨n, hn⟩
      · exact ih hnodes a ha

namespace Faithful

variable {encode : α → Json} {decoder : Decoder α} {Valid : α → Prop}

theorem optional (h : Faithful encode decoder Valid) {e : Fault} (hnull : decoder .null = .error e) :
    Faithful (Json.ofOption encode) (Decoder.optional decoder) fun o => ∀ a ∈ o, Valid a where
  decode_encode o ho := by
    cases o with
    | none => rfl
    | some a =>
        have ha := h.decode_encode a (ho a rfl)
        have hnode : (encode a).toNode ≠ .null := fun hnode => by
          rw [hnode, hnull] at ha
          cases ha
        rw [Json.ofOption, Decoder.optional, ha]
        · rfl
        · exact hnode
  valid n o ho a ha := by
    cases ha
    exact h.valid n a (decoder_of_optional ho)

theorem list (h : Faithful encode decoder Valid) :
    Faithful (Json.ofList encode) (Decoder.list decoder) fun as => ∀ a ∈ as, Valid a where
  decode_encode as has := by
    have hitems := mapM_map fun a ha => h.decode_encode a (has a ha)
    simp only [Json.ofList, toNode, toNodes_eq_map, List.map_map, Function.comp_def, Decoder.list,
      hitems]
    rfl
  valid n as hn a ha := by
    unfold Decoder.list at hn
    split at hn
    · obtain ⟨bs, hitems, hn⟩ := ok_of_bind hn
      split at hn
      · cases hn
        obtain ⟨n, hn⟩ := exists_of_mapM hitems a ha
        exact h.valid n a hn
      · cases hn
    · cases hn

end Faithful

/-! ## Objects -/

/-- Members are what a shape asks for, and make a value. -/
structure Writes (shape : ObjectShape α) (members : List (String × Json)) (a : α) : Prop where
  fields : List.Forall₂ (fun field m => field.name = m.1 ∧ field.check m.2.toNode = .ok ())
    shape.fields members
  build : ∀ known, (∀ m ∈ members, known.lookup m.1 = some m.2.toNode) →
    shape.build known = .ok a

namespace Writes

theorem seq {f : ObjectShape (α → β)} {x : ObjectShape α} {ms ms' : List (String × Json)}
    {g : α → β} {a : α} (hf : Writes f ms g) (hx : Writes x ms' a) :
    Writes (f <*> x) (ms ++ ms') (g a) where
  fields := List.rel_append hf.fields hx.fields
  build known hknown := by
    have hg := hf.build known fun m hm => hknown m (List.mem_append_left _ hm)
    have ha := hx.build known fun m hm => hknown m (List.mem_append_right _ hm)
    show (do let g ← f.build known; let a ← x.build known; .ok (g a)) = _
    rw [hg, ha]
    rfl

theorem map (g : α → β) {x : ObjectShape α} {ms : List (String × Json)} {a : α}
    (hx : Writes x ms a) : Writes (g <$> x) ms (g a) := by
  have hpure : Writes (pure g) [] g := ⟨.nil, fun _ _ => rfl⟩
  exact hpure.seq hx

theorem field (name : String) (hasDefault : Bool) {decoder : Decoder α} (absent : Except Fault α)
    {j : Json} {a : α} (h : decoder j.toNode = .ok a) :
    Writes (Shape.field name hasDefault decoder absent) [(name, j)] a where
  fields := .cons ⟨rfl, by simp only [h]; rfl⟩ .nil
  build known hknown := by
    have hlookup := hknown (name, j) (by simp)
    simp only [Shape.field, hlookup, h]

end Writes

/-- The field of a name, when every name is that of one field. -/
theorem exists_field? {fields : List (Field Node Fault)} {ms : List (String × Json)}
    (h : List.Forall₂ (fun field m => field.name = m.1 ∧ field.check m.2.toNode = .ok ())
      fields ms) (hnodup : (ms.map (·.1)).Nodup) :
    ∀ m ∈ ms, ∃ field, fields.find? (·.name == m.1) = some field ∧
      field.check m.2.toNode = .ok () := by
  induction h with
  | nil => simp
  | @cons field m' fields ms hfield hrest ih =>
      rw [List.map_cons, List.nodup_cons] at hnodup
      intro m hm
      rcases List.mem_cons.1 hm with rfl | hm
      · exact ⟨field, List.find?_cons_of_pos (by simp [hfield.1]), hfield.2⟩
      · obtain ⟨other, hother, hcheck⟩ := ih hnodup.2 m hm
        have hne : field.name ≠ m.1 := by
          rw [hfield.1]
          rintro heq
          exact hnodup.1 (heq ▸ List.mem_map_of_mem hm)
        exact ⟨other, by rw [List.find?_cons_of_neg (by simp [hne]), hother], hcheck⟩

/-- Members that all have their field are all collected. -/
theorem collect_members {shape : ObjectShape α} {ms : List (String × Json)} (seen : List String)
    (hfields : ∀ m ∈ ms, ∃ field, shape.field? m.1 = some field ∧
      field.check m.2.toNode = .ok ())
    (hnodup : (ms.map (·.1)).Nodup) (hseen : ∀ m ∈ ms, m.1 ∉ seen) :
    shape.collect ObjectShape.rules seen (ms.map fun m => (.ok m.1, m.2.toNode)) =
      .ok (ms.map fun m => (m.1, m.2.toNode)) := by
  induction ms generalizing seen with
  | nil => rfl
  | cons m ms ih =>
      rw [List.map_cons, List.nodup_cons] at hnodup
      obtain ⟨field, hfield, hcheck⟩ := hfields m List.mem_cons_self
      have hnew : seen.contains m.1 = false := by
        simpa using hseen m List.mem_cons_self
      have hrest := ih (m.1 :: seen) (fun m' hm' => hfields m' (List.mem_cons_of_mem _ hm'))
        hnodup.2 fun m' hm' hmem => by
          rcases List.mem_cons.1 hmem with heq | hmem
          · exact hnodup.1 (heq ▸ List.mem_map_of_mem hm')
          · exact hseen m' (List.mem_cons_of_mem _ hm') hmem
      rw [List.map_cons, Shape.collect, hfield]
      simp only [hnew, hcheck, hrest, bind, Except.bind]
      rfl

theorem lookup_members {ms : List (String × Json)} (hnodup : (ms.map (·.1)).Nodup) :
    ∀ m ∈ ms, (ms.map fun m => (m.1, m.2.toNode)).lookup m.1 = some m.2.toNode := by
  induction ms with
  | nil => simp
  | cons m' ms ih =>
      rw [List.map_cons, List.nodup_cons] at hnodup
      intro m hm
      rcases List.mem_cons.1 hm with rfl | hm
      · simp
      · have hne : m.1 ≠ m'.1 := fun heq => hnodup.1 (heq ▸ List.mem_map_of_mem hm)
        rw [List.map_cons, List.lookup_cons, beq_false_of_ne hne]
        exact ih hnodup.2 m hm

/-- An object with the members that its shape asks for has the value that they make. -/
theorem Writes.decoder {shape : ObjectShape α} {ms : List (String × Json)} {a : α}
    (h : Writes shape ms a) (hnodup : (ms.map (·.1)).Nodup) :
    shape.decoder (Json.object ms).toNode = .ok a := by
  have hcollect := collect_members [] (exists_field? h.fields hnodup) hnodup (by simp)
  have hbuild := h.build _ (lookup_members hnodup)
  simp only [toNode, toMembers_eq_map, ObjectShape.decoder, List.map_map, Function.comp_def,
    ObjectShape.nameOf, Decoder.ofOption, hcollect, bind, Except.bind, if_true, hbuild]

/-- The parts that a node gives to a shape. -/
inductive Parts (shape : ObjectShape α) : Node → List (String × Node) → Prop
  /-- The members of an object with the names of fields. -/
  | object {members : List (Option String × Node)} {known : List (String × Node)} :
      shape.collect ObjectShape.rules []
        (members.map fun m => (ObjectShape.nameOf m.1, m.2)) = .ok known →
      Parts shape (.object members true) known
  /-- The items of an array, in the order of the fields. -/
  | array {items : List Node} {known : List (String × Node)} :
      Shape.collectList .invalid shape.fields items = .ok known →
      Parts shape (.array items true) known

/-- A value is made of the parts that its node gives. -/
theorem exists_parts {shape : ObjectShape α} {n : Node} {a : α} (h : shape.decoder n = .ok a) :
    ∃ known, Parts shape n known ∧ shape.build known = .ok a := by
  unfold ObjectShape.decoder at h
  split at h
  · obtain ⟨known, hknown, hbuild⟩ := ok_of_bind h
    split at hbuild
    · rename_i hwhole
      cases hwhole
      exact ⟨known, .object hknown, hbuild⟩
    · cases hbuild
  · obtain ⟨known, hknown, hbuild⟩ := ok_of_bind h
    split at hbuild
    · rename_i hwhole
      cases hwhole
      exact ⟨known, .array hknown, hbuild⟩
    · cases hbuild
  · cases h

/-! ## What is given for a field -/

/-- The part of a node that is given for the field of a name: the first member of this name, or the
item that has the place of the field. -/
def ObjectShape.given (shape : ObjectShape α) (name : String) : Node → Option Node
  | .object members _ => members.lookup (some name)
  | .array items _ => ((shape.fields.map (·.name)).zip items).lookup name
  | _ => none

theorem lookup_of_collect {shape : ObjectShape α} {name : String}
    (hfield : (shape.field? name).isSome = true) {seen : List String}
    {members : List (Option String × Node)} {known : List (String × Node)}
    (h : shape.collect ObjectShape.rules seen
      (members.map fun m => (ObjectShape.nameOf m.1, m.2)) = .ok known) :
    known.lookup name = members.lookup (some name) := by
  induction members generalizing seen known with
  | nil =>
      cases h
      rfl
  | cons m members ih =>
      obtain ⟨k, n⟩ := m
      cases k with
      | none => cases h
      | some k =>
          have hsame : (some name == some k) = (name == k) := rfl
          rw [List.lookup_cons, hsame]
          rw [List.map_cons, ObjectShape.nameOf, Decoder.ofOption, Shape.collect] at h
          cases hk : shape.field? k with
          | none =>
              have hne : (name == k) = false := by
                rw [beq_eq_false_iff_ne]
                rintro rfl
                rw [hk] at hfield
                cases hfield
              simp only [hk] at h
              obtain ⟨-, -, h⟩ := ok_of_bind h
              rw [hne, ih h]
          | some field =>
              simp only [hk] at h
              split at h
              · cases h
              obtain ⟨-, -, h⟩ := ok_of_bind h
              obtain ⟨more, hmore, h⟩ := ok_of_bind h
              cases h
              rw [List.lookup_cons, ih hmore]

theorem eq_zip_of_collectList {fields : List (Field Node Fault)} {items : List Node}
    {known : List (String × Node)} (h : Shape.collectList .invalid fields items = .ok known) :
    known = (fields.map (·.name)).zip items := by
  induction items generalizing fields known with
  | nil =>
      rw [List.zip_nil_right]
      unfold Shape.collectList at h
      split at h
      · cases h
        rfl
      · cases h
  | cons n items ih =>
      cases fields with
      | nil => cases h
      | cons field fields =>
          rw [Shape.collectList] at h
          obtain ⟨-, -, h⟩ := ok_of_bind h
          obtain ⟨more, hmore, h⟩ := ok_of_bind h
          cases h
          rw [ih hmore]
          rfl

/-- A field is made of what is given for it. -/
theorem Parts.lookup {shape : ObjectShape α} {n : Node} {known : List (String × Node)}
    (h : Parts shape n known) {name : String} (hfield : (shape.field? name).isSome = true) :
    known.lookup name = shape.given name n := by
  cases h with
  | object h => exact lookup_of_collect hfield h
  | array h => rw [eq_zip_of_collectList h, ObjectShape.given]

/-! ## What a shape makes of its parts -/

/-- What a shape in sequence makes of its parts. -/
theorem exists_of_seq {f : ObjectShape (α → β)} {x : ObjectShape α} {known : List (String × Node)}
    {b : β} (h : (f <*> x).build known = .ok b) :
    ∃ g a, f.build known = .ok g ∧ x.build known = .ok a ∧ g a = b := by
  obtain ⟨g, hg, h⟩ := ok_of_bind (x := f.build known) h
  obtain ⟨a, ha, h⟩ := ok_of_bind h
  cases h
  exact ⟨g, a, hg, ha, rfl⟩

/-- A field that has to come is made of its part. -/
theorem exists_of_required {name : String} {decoder : Decoder α} {known : List (String × Node)}
    {a : α} (h : (ObjectShape.required name decoder).build known = .ok a) :
    ∃ n, known.lookup name = some n ∧ decoder n = .ok a := by
  simp only [ObjectShape.required, Shape.field] at h
  split at h
  · rename_i n hn
    exact ⟨n, hn, h⟩
  · cases h

/-- Whatever parts a shape is given, the value that it makes of them is like this. -/
def Yields (shape : ObjectShape α) (P : α → Prop) : Prop :=
  ∀ known a, shape.build known = .ok a → P a

namespace Yields

theorem seq {f : ObjectShape (α → β)} {x : ObjectShape α} {P : α → Prop} {Q : β → Prop}
    (hf : Yields f fun g => ∀ a, P a → Q (g a)) (hx : Yields x P) : Yields (f <*> x) Q := by
  intro known b hb
  obtain ⟨g, a, hg, ha, rfl⟩ := exists_of_seq hb
  exact hf known g hg a (hx known a ha)

theorem map {g : α → β} {x : ObjectShape α} {P : α → Prop} {Q : β → Prop}
    (hg : ∀ a, P a → Q (g a)) (hx : Yields x P) : Yields (g <$> x) Q :=
  seq (f := pure g) (fun _ _ h => by cases h; exact hg) hx

theorem required (name : String) {decoder : Decoder α} {P : α → Prop}
    (h : ∀ n a, decoder n = .ok a → P a) : Yields (ObjectShape.required name decoder) P := by
  intro known a ha
  obtain ⟨n, -, hn⟩ := exists_of_required ha
  exact h n a hn

theorem optional (name : String) {decoder : Decoder α} {P : Option α → Prop} (hnone : P none)
    (h : ∀ n a, Decoder.optional decoder n = .ok a → P a) :
    Yields (ObjectShape.optional name decoder) P := by
  intro known a ha
  simp only [ObjectShape.optional, Shape.field] at ha
  split at ha
  · exact h _ a ha
  · cases ha
    exact hnone

theorem decoder {shape : ObjectShape α} {P : α → Prop} (h : Yields shape P) {n : Node} {a : α}
    (ha : shape.decoder n = .ok a) : P a := by
  obtain ⟨known, -, hbuild⟩ := exists_parts ha
  exact h known a hbuild

end Yields

/-! ## The fields of a row -/

/-- The fields of a row `α` go together with a shape that makes `β`: the parts of every row that can
be written are what the shape asks for, and what it makes of any parts is like this. -/
structure Fields (shape : ObjectShape β) (members : α → List (String × Json)) (part : α → β)
    (Valid : α → Prop) (P : β → Prop) : Prop where
  writes : ∀ a, Valid a → Writes shape (members a) (part a)
  yields : Yields shape P

namespace Fields

variable {γ : Type} {encode : β → Json} {decode : Decoder β} {Valid : β → Prop}

theorem seq {f : ObjectShape (γ → β)} {x : ObjectShape γ} {mf mx : α → List (String × Json)}
    {gf : α → γ → β} {gx : α → γ} {Vf Vx : α → Prop} {P : γ → Prop} {Q : β → Prop}
    (hf : Fields f mf gf Vf fun g => ∀ c, P c → Q (g c)) (hx : Fields x mx gx Vx P) :
    Fields (f <*> x) (fun a => mf a ++ mx a) (fun a => gf a (gx a)) (fun a => Vf a ∧ Vx a) Q where
  writes a ha := (hf.writes a ha.1).seq (hx.writes a ha.2)
  yields := hf.yields.seq hx.yields

/-- The first field.  `hg` is about the value that is made of all fields. -/
theorem map {g : γ → β} {x : ObjectShape γ} {members : α → List (String × Json)} {part : α → γ}
    {V : α → Prop} {P : γ → Prop} {Q : β → Prop} (hg : ∀ c, P c → Q (g c))
    (hx : Fields x members part V P) :
    Fields (g <$> x) members (fun a => g (part a)) V Q where
  writes a ha := (hx.writes a ha).map g
  yields := hx.yields.map hg

theorem required (name : String) (h : Faithful encode decode Valid) (part : α → β) :
    Fields (ObjectShape.required name decode) (fun a => [(name, encode (part a))]) part
      (fun a => Valid (part a)) Valid where
  writes _ ha := .field name false _ (h.decode_encode _ ha)
  yields := .required name h.valid

theorem optional (name : String) (h : Faithful encode decode Valid) {e : Fault}
    (hnull : decode .null = .error e) (part : α → Option β) :
    Fields (ObjectShape.optional name decode) (fun a => [(name, Json.ofOption encode (part a))])
      part (fun a => ∀ b ∈ part a, Valid b) (fun o => ∀ b ∈ o, Valid b) where
  writes _ ha := .field name false _ ((h.optional hnull).decode_encode _ ha)
  yields := .optional name (by simp) (h.optional hnull).valid

/-- A row is read back if its fields go together with its shape. -/
theorem faithful {shape : ObjectShape α} {members : α → List (String × Json)} {V P : α → Prop}
    (h : Fields shape members id V P) (hnodup : ∀ a, ((members a).map (·.1)).Nodup)
    (hvalid : ∀ a, P a → V a) : Faithful (fun a => .object (members a)) shape.decoder P where
  decode_encode a ha := (h.writes a (hvalid a ha)).decoder (hnodup a)
  valid _ _ ha := h.yields.decoder ha

end Fields

end FundsTransfer.Json
