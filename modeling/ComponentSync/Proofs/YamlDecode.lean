import ComponentSync.Yaml.Decode
import ComponentSync.Proofs.YamlEvents
import ComponentSync.Proofs.IndexText
/-! Reading typed values back from a written block mapping. A written mapping loads as one
document whose items are those of its events (`load_mapping`). `Decodes dec is a` says that the
decoder `dec` reads the items `is`, wherever they stand in a document, as `a`; it is proved for
text, numbers, choices, optional values, sequences and records, the last through `EntriesRead`,
which follows the reading of a record's entries field by field. -/
namespace ComponentSync.Yaml

/-- The item a node event gives a loaded document. -/
def EventKind.item : EventKind → Item
  | .scalar _ tag text style => .scalar tag text style
  | .sequenceStart _ tag _ => .sequenceStart tag
  | .sequenceEnd => .sequenceEnd
  | .mappingStart _ tag _ => .mappingStart tag
  | .mappingEnd => .mappingEnd
  | _ => .void

def EventKind.isPlainNode : EventKind → Bool
  | .scalar none _ _ _ | .sequenceStart none _ _ | .sequenceEnd | .mappingStart none _ _
  | .mappingEnd => true
  | _ => false

theorem take_go_nodes {first : Bool} {failure : Option SyntaxError} {anchors : List (String × Nat)}
    (evs : List Event) (h : ∀ e ∈ evs, e.kind.isPlainNode = true) (items : Array (Item × Mark))
    (rest : List Event) :
    Document.take.go first failure anchors items (evs ++ rest) =
      Document.take.go first failure anchors
        (items ++ (evs.map fun e => (e.kind.item, e.start)).toArray) rest := by
  induction evs generalizing items with
  | nil => simp
  | cons e evs ih =>
    obtain ⟨kind, start, stop⟩ := e
    have he := h _ List.mem_cons_self
    have ih' := ih (fun e he => h e (List.mem_cons_of_mem _ he))
    rw [List.cons_append, Document.take.go]
    cases kind with
    | scalar anchor tag text style =>
      cases anchor <;> simp_all [EventKind.isPlainNode, EventKind.item]
    | sequenceStart anchor tag flow =>
      cases anchor <;> simp_all [EventKind.isPlainNode, EventKind.item]
    | mappingStart anchor tag flow =>
      cases anchor <;> simp_all [EventKind.isPlainNode, EventKind.item]
    | sequenceEnd => simp_all [EventKind.item]
    | mappingEnd => simp_all [EventKind.item]
    | _ => simp [EventKind.isPlainNode] at he

/-- The events of a value as the writer puts it: a scalar, a sequence of scalars or a block
mapping. -/
def valueEvents : Value → List EventKind
  | .map inner => .mappingStart none none false :: (entriesEvents inner ++ [.mappingEnd])
  | .seq items =>
    .sequenceStart none none false :: (items.map (fun x => (scalarWritten x).event) ++ [.sequenceEnd])
  | v => [(scalarWritten v).event]

theorem entriesEvents_cons (k : String) (v : Value) (es : List (String × Value)) :
    entriesEvents ((k, v) :: es) = .scalar none none k .plain :: (valueEvents v ++ entriesEvents es) := by
  cases v <;> simp [entriesEvents, valueEvents]

theorem Written.event_isPlainNode (w : Written) : w.event.isPlainNode = true := by
  cases w <;> rfl

theorem Entries.events_isPlainNode {es : List (String × Value)} (h : Entries es) :
    ∀ k ∈ entriesEvents es, k.isPlainNode = true := by
  induction h with
  | nil => simp
  | @scalar k v es _ hv _ ih =>
    intro x hx
    rw [entriesEvents_cons] at hx
    cases hv <;>
    · simp only [valueEvents, List.mem_cons, List.cons_append, List.nil_append] at hx
      rcases hx with rfl | rfl | hx
      · rfl
      · exact Written.event_isPlainNode _
      · exact ih x hx
  | seq _ _ _ _ ih =>
    intro x hx
    simp only [entriesEvents, List.mem_cons, List.mem_append, List.mem_map] at hx
    rcases hx with rfl | rfl | ⟨y, -, rfl⟩ | rfl | hx
    all_goals first | rfl | exact Written.event_isPlainNode _ | exact ih x hx
  | map _ _ _ _ ihi ih =>
    intro x hx
    simp only [entriesEvents, List.mem_cons, List.mem_append] at hx
    rcases hx with rfl | rfl | hx | rfl | hx
    all_goals first | rfl | exact ihi x hx | exact ih x hx

/-- A block mapping written as text loads as one document: the items of its events, with no
error and nothing after it. -/
theorem load_mapping {es : List (String × Value)} (h : Entries es) (hne : es ≠ []) :
    ∃ doc, Document.load (Value.map es).toYaml = (doc, false) ∧ doc.error = none ∧
      doc.items.toList.map Prod.fst = (valueEvents (.map es)).map EventKind.item := by
  obtain ⟨evs, hl, hk⟩ := listOf_mapping h hne
  -- split the events at the mapping's start and end
  rw [show .streamStart :: .documentStart true :: .mappingStart none none false ::
      (entriesEvents es ++ [.mappingEnd, .documentEnd true, .streamEnd]) =
      .streamStart :: .documentStart true :: (valueEvents (.map es) ++ [.documentEnd true, .streamEnd])
    by simp [valueEvents]] at hk
  obtain ⟨e₁, evs, rfl, hk₁, hk⟩ := List.map_eq_cons_iff.mp hk
  obtain ⟨e₂, evs, rfl, hk₂, hk⟩ := List.map_eq_cons_iff.mp hk
  obtain ⟨mid, tail, rfl, hmid, htail⟩ := List.map_eq_append_iff.mp hk
  obtain ⟨e₃, tail, rfl, hk₃, htail⟩ := List.map_eq_cons_iff.mp htail
  obtain ⟨e₄, tail, rfl, hk₄, htail⟩ := List.map_eq_cons_iff.mp htail
  obtain rfl := List.map_eq_nil_iff.mp htail
  have hplain : ∀ e ∈ mid, e.kind.isPlainNode = true := by
    intro e he
    have hm : e.kind ∈ valueEvents (.map es) := hmid ▸ List.mem_map_of_mem he
    simp only [valueEvents, List.mem_cons, List.mem_append, List.not_mem_nil, or_false] at hm
    rcases hm with hm | hm | hm
    · rw [hm]; rfl
    · exact h.events_isPlainNode _ hm
    · rw [hm]; rfl
  refine ⟨⟨(mid.map fun e => (e.kind.item, e.start)).toArray, none⟩, ?_, rfl, by simp [← hmid]⟩
  unfold Document.load Document.take
  rw [hl]
  simp only [Document.take.go, hk₁, hk₂]
  rw [take_go_nodes mid hplain]
  simp [Document.take.go, hk₃, hk₄]

/-! ### Reading values from items -/

/-- The items `is` stand in the document from position `pos` on. -/
def Document.HasAt (d : Document) (pos : Nat) (is : List Item) : Prop :=
  ∃ rest, (d.items.toList.drop pos).map Prod.fst = is ++ rest

namespace Document.HasAt

variable {d : Document} {pos : Nat} {i : Item} {is is' : List Item}

theorem peek (h : d.HasAt pos (i :: is)) : ∃ m, d.peek pos = .ok (i, m) := by
  obtain ⟨rest, hrest⟩ := h
  obtain ⟨⟨i', m⟩, l, hl, hi, -⟩ := List.map_eq_cons_iff.mp hrest
  refine ⟨m, ?_⟩
  have hget : d.items[pos]? = some (i', m) := by
    have h0 : (d.items.toList.drop pos)[0]? = some (i', m) := by rw [hl]; rfl
    rwa [List.getElem?_drop, Nat.add_zero, Array.getElem?_toList] at h0
  simp only at hi
  simp [Document.peek, hget, hi]

theorem drop (h : d.HasAt pos (is ++ is')) : d.HasAt (pos + is.length) is' := by
  obtain ⟨rest, hrest⟩ := h
  refine ⟨rest, ?_⟩
  rw [← List.drop_drop, List.map_drop, hrest, List.append_assoc, List.drop_left]

theorem tail (h : d.HasAt pos (i :: is)) : d.HasAt (pos + 1) is := by
  have h' := drop (show d.HasAt pos ([i] ++ is) from h)
  exact h'

theorem take (h : d.HasAt pos (is ++ is')) : d.HasAt pos is := by
  obtain ⟨rest, hrest⟩ := h
  exact ⟨is' ++ rest, by rw [hrest, List.append_assoc]⟩

theorem length_le (h : d.HasAt pos (i :: is)) : pos + (i :: is).length ≤ d.items.size := by
  obtain ⟨rest, hrest⟩ := h
  have hlen := congrArg List.length hrest
  simp only [List.length_map, List.length_drop, Array.length_toList, List.length_append,
    List.length_cons] at hlen
  simp only [List.length_cons]
  omega

end Document.HasAt

/-- The decoder `dec` reads the items `is`, wherever they stand, as `a`. -/
def Decodes {α : Type} (dec : Decoder α) (is : List Item) (a : α) : Prop :=
  ∀ d path pos, Document.HasAt d pos is → dec d path pos = .ok (a, pos + is.length)

section Decoders

variable {α : Type} {tag : Option String} {t : String} {st : ScalarStyle}

theorem decodes_text (expected : String) : Decodes (Decoder.text expected) [.scalar tag t st] t := by
  intro d path pos h
  obtain ⟨m, hp⟩ := h.peek
  simp [Decoder.text, node, hp, bind, Except.bind]

theorem decodes_textWith {expected : String} {convert : String → Except String α} {a : α}
    (hc : convert t = .ok a) : Decodes (Decoder.textWith expected convert) [.scalar tag t st] a := by
  intro d path pos h
  obtain ⟨m, hp⟩ := h.peek
  simp [Decoder.textWith, node, hp, hc, bind, Except.bind]

theorem decodes_choice {names : List String} (ht : t ∈ names) :
    Decodes (Decoder.choice names) [.scalar none t st] t := by
  intro d path pos h
  obtain ⟨m, hp⟩ := h.peek
  simp [Decoder.choice, node, hp, ht, localTagChoice, bind, Except.bind]

end Decoders

/-! ### Numbers -/

theorem afterPrefix_none {s pre : String} (h : ¬ pre.toList <+: s.toList) : afterPrefix s pre = none := by
  simp [afterPrefix, String.startsWith_string_eq_false_iff.mpr h]

theorem foldl_digits {max : Nat} {f : Option Nat → Char → Option Nat}
    (hf : ∀ acc c, c.isDigit = true → acc * 10 + (c.toNat - '0'.toNat) ≤ max →
      f (some acc) c = some (acc * 10 + (c.toNat - '0'.toNat))) :
    ∀ (ds : List Char) (acc : Nat), (∀ c ∈ ds, c.isDigit = true) →
      Nat.ofDigitChars 10 ds acc ≤ max → ds.foldl f (some acc) = some (Nat.ofDigitChars 10 ds acc)
  | [], acc, _, _ => rfl
  | c :: ds, acc, hds, hle => by
    rw [Nat.ofDigitChars_cons] at hle ⊢
    have hstep := Json.le_ofDigitChars ds (10 * acc + (c.toNat - '0'.toNat))
    rw [List.foldl_cons, hf acc c (hds c List.mem_cons_self) (by rw [Nat.mul_comm]; omega),
      Nat.mul_comm acc 10]
    exact foldl_digits hf ds _ (fun d hd => hds d (List.mem_cons_of_mem _ hd)) hle

theorem unsignedOfText_toString {max n : Nat} (hn : n ≤ max) :
    unsignedOfText max (toString n) = some n := by
  have hs : (toString n).toList = Nat.toDigits 10 n := by simp [Nat.toString_eq_repr, Nat.repr]
  rcases Nat.eq_zero_or_pos n with rfl | hpos
  · simp [unsignedOfText, afterPrefix, startsSigned, digitsButNotNumber, readRadix]
  obtain ⟨c, cs, hcs, hc0⟩ := Json.toDigits_cons_of_pos hpos
  have hdig : ∀ d ∈ c :: cs, d.isDigit = true := fun d hd =>
    Nat.isDigit_of_mem_toDigits (by decide) (by decide) (hcs ▸ hd)
  rw [hcs] at hs
  have hc : c ≠ '+' ∧ c ≠ '-' := by
    have := Char.isDigit_iff_toNat.mp (hdig c List.mem_cons_self)
    constructor <;> rintro rfl <;> simp at this
  -- no prefix other than a digit fits the text
  generalize toString n = s at hs ⊢
  have hnot : ∀ d r, d ≠ c → afterPrefix s (String.ofList (d :: r)) = none := by
    intro d r hd
    refine afterPrefix_none fun h => hd ?_
    rw [String.toList_ofList, hs] at h
    exact (List.cons_prefix_cons.mp h).1
  have hss : startsSigned s = false := by
    simp only [startsSigned, Bool.or_eq_false_iff, String.startsWith_string_eq_false_iff, hs]
    exact ⟨fun h => hc.1 (List.cons_prefix_cons.mp h).1.symm,
      fun h => hc.2 (List.cons_prefix_cons.mp h).1.symm⟩
  have hdb : digitsButNotNumber s = false := by
    unfold digitsButNotNumber
    rw [hs]
    split
    · next heq => exact absurd (List.cons.inj heq).1 hc.2
    · next heq => exact absurd (List.cons.inj heq).1 hc.1
    · simp [hc0]
  have hval : Nat.ofDigitChars 10 (c :: cs) 0 = n := by
    rw [← hcs]
    exact Nat.ofDigitChars_ten_toDigits
  have hrr : readRadix 10 max s = some n := by
    unfold readRadix
    rw [hs]
    split
    · next heq => exact absurd (List.cons.inj heq).1 hc.1
    · simp only [List.isEmpty_cons, Bool.false_eq_true, if_false]
      rw [foldl_digits ?_ (c :: cs) 0 hdig (hval ▸ hn), hval]
      intro acc d hd hle
      have := Char.isDigit_iff_toNat.mp hd
      simp only [Char.le_iff_toNat_le]
      simp [show ('0' : Char).toNat = 48 from rfl, show ('9' : Char).toNat = 57 from rfl] at this ⊢
      rw [show ('0' : Char).toNat = 48 from rfl] at hle
      rw [if_pos this, Option.bind_some, if_pos ⟨by omega, hle⟩]
  have h0x := hnot '0' ['x'] (Ne.symm hc0)
  have h0o := hnot '0' ['o'] (Ne.symm hc0)
  have h0b := hnot '0' ['b'] (Ne.symm hc0)
  have h1 := hnot '+' [] (Ne.symm hc.1)
  simp only [show String.ofList ['0', 'x'] = "0x" from rfl, show String.ofList ['0', 'o'] = "0o" from rfl,
    show String.ofList ['0', 'b'] = "0b" from rfl, show String.ofList ['+'] = "+" from rfl] at h0x h0o h0b h1
  unfold unsignedOfText
  simp [h1, h0x, h0o, h0b, hss, hdb, hrr]



theorem decodes_unsigned {max n : Nat} (name : String) (hn : n ≤ max) (hu : n ≤ u64Max) :
    Decodes (Decoder.unsigned max name) [.scalar none (toString n) .plain] n := by
  intro d path pos h
  obtain ⟨m, hp⟩ := h.peek
  have hr := unsignedOfText_toString hu
  simp only [Decoder.unsigned, node, hp, bind, Except.bind, holdsTagged, Bool.not_true,
    Bool.false_eq_true, if_false, hr, hn, if_true, List.length_singleton]

section Optional

variable {α : Type} {dec : Decoder α} {i : Item} {is : List Item} {a : α}

theorem decodes_optional (hd : Decodes dec (i :: is) a) (hp : i.present = .ok true)
    (hi : ∀ t, i ≠ .alias t) : Decodes (Decoder.optional dec) (i :: is) (some a) := by
  intro d path pos h
  obtain ⟨m, hpk⟩ := h.peek
  unfold Decoder.optional
  simp only [hpk, bind, Except.bind]
  simp only [hp, if_true, hd d path pos h]
  rfl

end Optional

/-! ### Sequences -/

section Sequence

variable {α β : Type} {elem : Decoder α} (f : β → List Item) (g : β → α)

/-- What a sequence's entries are: each starts with an item other than the end of a sequence. -/
def StartsEntry (is : List Item) : Prop :=
  ∃ i rest, is = i :: rest ∧ i ≠ .sequenceEnd ∧ i ≠ .void

theorem readElementsFrom_entries (d : Document) (path : Path) :
    ∀ (xs : List β), (∀ x ∈ xs, Decodes elem (f x) (g x)) → (∀ x ∈ xs, StartsEntry (f x)) →
      ∀ (fuel : Nat) (acc : Array α) (pos : Nat), d.HasAt pos (xs.flatMap f ++ [.sequenceEnd]) →
        xs.length < fuel →
        readElementsFrom elem d path fuel acc pos =
          .ok (acc ++ (xs.map g).toArray, pos + (xs.flatMap f).length)
  | [], _, _, fuel + 1, acc, pos, h, _ => by
    obtain ⟨m, hp⟩ := (show d.HasAt pos [.sequenceEnd] from h).peek
    simp [readElementsFrom, hp, bind, Except.bind]
    rfl
  | x :: xs, hd, hs, fuel + 1, acc, pos, h, hlen => by
    obtain ⟨i, is, hx, hi₁, hi₂⟩ := hs x List.mem_cons_self
    rw [List.flatMap_cons, List.append_assoc] at h
    have hx' := h.take
    rw [hx] at hx'
    obtain ⟨m, hp⟩ := hx'.peek
    have hnext : readElementsFrom elem d path fuel (acc.push (g x)) (pos + (f x).length) =
        .ok (acc.push (g x) ++ (xs.map g).toArray, pos + (f x).length + (xs.flatMap f).length) :=
      readElementsFrom_entries d path xs (fun y hy => hd y (List.mem_cons_of_mem _ hy))
      (fun y hy => hs y (List.mem_cons_of_mem _ hy)) fuel (acc.push (g x)) _ h.drop
      (by simp at hlen; omega)
    unfold readElementsFrom
    simp only [hp, bind, Except.bind]
    rw [hd x List.mem_cons_self d _ pos (hx ▸ h.take)]
    simp only [hnext, List.flatMap_cons, List.length_append, List.map_cons, Nat.add_assoc]
    simp

theorem length_le_flatMap {xs : List β} (hs : ∀ x ∈ xs, StartsEntry (f x)) :
    xs.length ≤ (xs.flatMap f).length := by
  induction xs with
  | nil => simp
  | cons x xs ih =>
    obtain ⟨i, is, hx, -⟩ := hs x List.mem_cons_self
    have := ih fun y hy => hs y (List.mem_cons_of_mem _ hy)
    simp only [List.flatMap_cons, List.length_append, List.length_cons, hx]
    omega

theorem decodes_sequence {tag : Option String} (xs : List β)
    (hd : ∀ x ∈ xs, Decodes elem (f x) (g x)) (hs : ∀ x ∈ xs, StartsEntry (f x)) :
    Decodes (Decoder.sequence elem) (.sequenceStart tag :: (xs.flatMap f ++ [.sequenceEnd]))
      (xs.map g) := by
  intro d path pos h
  obtain ⟨m, hp⟩ := h.peek
  have hbody := h.tail
  have hsize := h.length_le
  have hfl := length_le_flatMap f hs
  simp only [List.length_cons, List.length_append, List.length_nil] at hsize
  have hloop := readElementsFrom_entries f g d path xs hd hs (d.items.size + 1) #[] (pos + 1) hbody
    (by omega)
  obtain ⟨m', hp'⟩ := Document.HasAt.peek hbody.drop
  simp only [Decoder.sequence, node, readElements, hp, bind, Except.bind, hloop, hp']
  simp only [Array.empty_append, List.toList_toArray, pure, Except.pure, Except.mapError,
    List.length_cons, List.length_append, List.length_nil]
  congr 2
  omega

end Sequence

/-! ### Records -/

theorem entriesEvents_append (es es' : List (String × Value)) :
    entriesEvents (es ++ es') = entriesEvents es ++ entriesEvents es' := by
  induction es with
  | nil => simp
  | cons e es ih =>
    obtain ⟨k, v⟩ := e
    rw [List.cons_append, entriesEvents_cons, entriesEvents_cons, ih]
    simp

theorem length_le_entriesEvents (es : List (String × Value)) :
    es.length ≤ (entriesEvents es).length := by
  induction es with
  | nil => simp
  | cons e es ih =>
    obtain ⟨k, v⟩ := e
    rw [entriesEvents_cons]
    simp only [List.length_cons, List.length_append]
    omega

section Record

variable {σ α : Type} (fields : List (RecordField σ))

/-- Reading the written entries `es` as fields takes the record `record` to `record'`. -/
def EntriesRead (es : List (String × Value)) (record record' : σ) : Prop :=
  ∀ d path pos fuel seen, Document.HasAt d pos ((entriesEvents es).map EventKind.item) →
    (es.map Prod.fst ++ seen).Nodup →
    readEntriesFrom fields d path (fuel + es.length) record seen pos =
      readEntriesFrom fields d path fuel record' ((es.map Prod.fst).reverse ++ seen)
        (pos + (entriesEvents es).length)

namespace EntriesRead

variable {fields}

theorem nil (record : σ) : EntriesRead fields [] record record := by
  intro d path pos fuel seen _ _
  simp

theorem append {es es' : List (String × Value)} {r₀ r₁ r₂ : σ} (h : EntriesRead fields es r₀ r₁)
    (h' : EntriesRead fields es' r₁ r₂) : EntriesRead fields (es ++ es') r₀ r₂ := by
  intro d path pos fuel seen hat hseen
  rw [entriesEvents_append, List.map_append] at hat
  rw [List.map_append, List.append_assoc] at hseen
  have hseen' : (es'.map Prod.fst ++ ((es.map Prod.fst).reverse ++ seen)).Nodup := by
    refine hseen.perm ?_
    have hswap : List.Perm (es.map Prod.fst ++ (es'.map Prod.fst ++ seen))
        (es'.map Prod.fst ++ (es.map Prod.fst ++ seen)) := List.perm_append_comm_assoc _ _ _
    exact hswap.trans
      (List.Perm.append_left _ (List.Perm.append_right _ (List.reverse_perm _).symm))
  rw [List.length_append, ← Nat.add_assoc, Nat.add_right_comm, h d path pos _ seen hat.take
    (hseen.sublist ((List.sublist_append_right (es'.map Prod.fst) seen).append_left _))]
  have hat' := hat.drop
  rw [List.length_map] at hat'
  rw [h' d path _ fuel _ hat' hseen']
  simp [entriesEvents_append, Nat.add_assoc]

theorem field {k : String} {v : Value} {β : Type} {dec : Decoder β} {store : β → σ → σ} {b : β}
    (hf : fields.find? (·.name == k) = some (RecordField.of k dec store))
    (hd : Decodes dec ((valueEvents v).map EventKind.item) b) (record : σ) :
    EntriesRead fields [(k, v)] record (store b record) := by
  intro d path pos fuel seen hat hseen
  rw [entriesEvents_cons] at hat ⊢
  simp only [entriesEvents, List.append_nil, List.map_cons] at hat
  obtain ⟨m, hp⟩ := hat.peek
  have hk : k ∉ seen := (List.nodup_cons.mp hseen).1
  have hv := hd d (.key path k) (pos + 1) hat.tail
  rw [List.length_singleton]
  simp only [readEntriesFrom, hp, bind, Except.bind, EventKind.item]
  rw [decodes_text "field identifier" d path pos hat.take]
  simp only [hf, List.contains_eq_mem, decide_eq_true_eq, hk, if_false, RecordField.of, hv,
    Except.map, List.length_map, entriesEvents_nil, List.length_cons, List.length_nil,
    List.map_cons, List.map_nil, List.reverse_cons, List.reverse_nil, List.nil_append,
    List.cons_append, List.length_append]
  congr 1
  omega

theorem optional {k : String} {β : Type} {x : Option β} {es : List (String × Value)}
    {toV : β → Value} {dec : Decoder β} {store : Option β → σ → σ} {record : σ}
    (hf : fields.find? (·.name == k) = some (RecordField.of k (Decoder.optional dec) store))
    (hsome : ∀ b, x = some b → es = [(k, toV b)]) (hnone : x = none → es = [])
    (hd : ∀ b, Decodes (Decoder.optional dec) ((valueEvents (toV b)).map EventKind.item) (some b))
    (hr : store none record = record) :
    EntriesRead fields es record (store x record) := by
  cases x with
  | none =>
    rw [hnone rfl, hr]
    exact nil record
  | some b =>
    rw [hsome b rfl]
    exact field hf (hd b) record

/-- An entry written only when its list is not empty. Absent, the field keeps the record's
value. -/
theorem list {k : String} {γ : Type} {l : List γ} {es : List (String × Value)} {v : Value}
    {dec : Decoder (List γ)} {store : List γ → σ → σ} {record : σ}
    (hf : fields.find? (·.name == k) = some (RecordField.of k dec store))
    (hsome : l ≠ [] → es = [(k, v)] ∧ Decodes dec ((valueEvents v).map EventKind.item) l)
    (hnone : l = [] → es = []) (hr : store [] record = record) :
    EntriesRead fields es record (store l record) := by
  by_cases hl : l = []
  · rw [hnone hl, hl, hr]
    exact nil record
  · obtain ⟨rfl, hd⟩ := hsome hl
    exact field hf hd record

end EntriesRead

theorem readEntriesFrom_end {d : Document} {path : Path} {fuel : Nat} {record : σ}
    {seen : List String} {pos : Nat} {m : Mark} (hp : d.peek pos = .ok (.mappingEnd, m)) :
    readEntriesFrom fields d path (fuel + 1) record seen pos = .ok (record, seen, pos) := by
  simp [readEntriesFrom, hp, bind, Except.bind]
  rfl

theorem decodes_record {name : String} {init record : σ} {finish : σ → List String → Except String α}
    {es : List (String × Value)} {a : α} (hE : EntriesRead fields es init record)
    (hn : (es.map Prod.fst).Nodup) (hfin : finish record (es.map Prod.fst).reverse = .ok a) :
    Decodes (Decoder.record name fields init finish) ((valueEvents (.map es)).map EventKind.item) a := by
  intro d path pos h
  simp only [valueEvents, List.map_cons, List.map_append, EventKind.item] at h ⊢
  obtain ⟨m, hp⟩ := h.peek
  have hsize := h.length_le
  have hes := length_le_entriesEvents es
  simp only [List.length_cons, List.length_append, List.length_map] at hsize
  have hbody := h.tail
  obtain ⟨m', hp'⟩ := Document.HasAt.peek hbody.drop
  simp only [List.length_map] at hp'
  have hread := hE d path (pos + 1) (d.items.size - es.length + 1) [] hbody.take
    (by rwa [List.append_nil])
  rw [show d.items.size - es.length + 1 + es.length = d.items.size + 1 by omega,
    readEntriesFrom_end fields hp', List.append_nil] at hread
  simp only [Decoder.record, node, readEntries, hp, bind, Except.bind, hread, hfin, hp']
  simp only [Except.mapError, pure, Except.pure, List.length_cons, List.length_append,
    List.length_map, List.length_nil]
  congr 2
  omega

end Record

/-! ### Written scalars -/

theorem valueEvents_str (s : String) :
    ∃ st, (valueEvents (.str s)).map EventKind.item = [.scalar none s st] := by
  by_cases h : isPlainSafe s = true
  · exact ⟨.plain, by simp [valueEvents, scalarWritten, h, Written.event, EventKind.item]⟩
  · exact ⟨.doubleQuoted, by simp [valueEvents, scalarWritten, h, Written.event, EventKind.item]⟩

theorem valueEvents_nat (n : Nat) :
    (valueEvents (.int n)).map EventKind.item = [.scalar none (toString n) .plain] := by
  have ht : toString (n : Int) = toString n := rfl
  simp [valueEvents, scalarWritten, Written.event, EventKind.item, ht]

theorem isPlainSafe_present {s : String} (h : isPlainSafe s = true) :
    s.isEmpty = false ∧ isNullText s = false := by
  constructor
  · cases he : s.isEmpty
    · rfl
    · have hs : s.toList = [] := by simp [String.isEmpty_iff.mp he]
      simp [isPlainSafe, hs] at h
  · cases hn : isNullText s
    · rfl
    · have hp : plainValue s = .unit := by simp [plainValue, hn]
      simp only [isPlainSafe, hp] at h
      split at h <;> simp at h

theorem decodes_text_str (expected s : String) :
    Decodes (Decoder.text expected) ((valueEvents (.str s)).map EventKind.item) s := by
  obtain ⟨st, h⟩ := valueEvents_str s
  rw [h]
  exact decodes_text expected

theorem decodes_optional_str (expected s : String) :
    Decodes (Decoder.optional (Decoder.text expected)) ((valueEvents (.str s)).map EventKind.item)
      (some s) := by
  obtain ⟨st, h⟩ := valueEvents_str s
  rw [h]
  refine decodes_optional (decodes_text expected) ?_ (by simp)
  by_cases hs : isPlainSafe s = true
  · have hst : st = .plain := by
      simp [valueEvents, scalarWritten, hs, Written.event, EventKind.item] at h
      exact h.symm
    obtain ⟨he, hn⟩ := isPlainSafe_present hs
    simp [Item.present, hst, he, hn]
  · have hst : st = .doubleQuoted := by
      simp [valueEvents, scalarWritten, hs, Written.event, EventKind.item] at h
      exact h.symm
    simp [Item.present, hst]

theorem Scalar.valueEvents {v : Value} (h : Scalar v) : valueEvents v = [(scalarWritten v).event] := by
  cases h <;> rfl

theorem decodes_sequence_scalars {α : Type} {elem : Decoder α} (xs : List α) (toV : α → Value)
    (hs : ∀ x ∈ xs, Scalar (toV x))
    (hd : ∀ x ∈ xs, Decodes elem ((valueEvents (toV x)).map EventKind.item) x) :
    Decodes (Decoder.sequence elem) ((valueEvents (.seq (xs.map toV))).map EventKind.item) xs := by
  have hitems : ((xs.map toV).map fun x => (scalarWritten x).event).map EventKind.item =
      xs.flatMap fun x => (valueEvents (toV x)).map EventKind.item := by
    induction xs with
    | nil => rfl
    | cons x xs ih =>
      simp only [List.map_cons, List.flatMap_cons, (hs x List.mem_cons_self).valueEvents]
      rw [ih (fun y hy => hs y (List.mem_cons_of_mem _ hy))
        (fun y hy => hd y (List.mem_cons_of_mem _ hy))]
      rfl
  have hv : valueEvents (.seq (xs.map toV)) = .sequenceStart none none false ::
      ((xs.map toV).map (fun x => (scalarWritten x).event) ++ [.sequenceEnd]) := rfl
  rw [hv, List.map_cons, List.map_append, hitems]
  have h : Decodes (Decoder.sequence elem) (.sequenceStart none ::
      (xs.flatMap (fun x => (valueEvents (toV x)).map EventKind.item) ++ [.sequenceEnd]))
      (xs.map id) := decodes_sequence _ id xs hd fun x hx => ?_
  · rw [List.map_id] at h
    exact h
  · rw [(hs x hx).valueEvents]
    cases hw : scalarWritten (toV x) <;>
      exact ⟨_, [], rfl, by simp [Written.event, EventKind.item], by simp [Written.event, EventKind.item]⟩

theorem runOn_mapping {α : Type} {dec : Decoder α} {es : List (String × Value)} {a : α}
    (h : Entries es) (hne : es ≠ [])
    (hd : Decodes dec ((valueEvents (.map es)).map EventKind.item) a) :
    dec.runOn (Value.map es).toYaml = .ok a := by
  obtain ⟨doc, hload, herr, hitems⟩ := load_mapping h hne
  have hat : doc.HasAt 0 ((valueEvents (.map es)).map EventKind.item) := ⟨[], by simp [hitems]⟩
  unfold Decoder.runOn
  rw [hload]
  simp [hd doc .root 0 hat, herr]

end ComponentSync.Yaml
