import ComponentSync.Yaml.Event.Stream
import ComponentSync.Proofs.YamlBlock
/-! Reading the events of a written block mapping. `Reads x r a r'` says that an event-reading
step run from the reader `r` returns `a` and leaves `r'`; `Emits` chains runs of `nextEvent`.
Each step of the grammar that a written mapping meets gets one lemma: a node, a key, a value,
an entry of a sequence written at its key's indentation, and the ends of each. Composed along
the entries of the mapping they give its events, and with the start and end of the stream, the
events of the whole text (`listOf_mapping`). -/
namespace ComponentSync.Yaml

variable {α β : Type}

/-- An event-reading step run from `r` returns `a` and leaves `r'`. -/
def Reads (x : ReadM α) (r : Reader) (a : α) (r' : Reader) : Prop :=
  x.run r = .ok (a, r')

namespace Reads

variable {x : ReadM α} {f : α → ReadM β} {r r₁ r₂ : Reader} {a : α} {b : β}

theorem bind (hx : Reads x r a r₁) (hf : Reads (f a) r₁ b r₂) : Reads (x >>= f) r b r₂ := by
  unfold Reads at *
  simp only [StateT.run_bind, hx]
  exact hf

theorem pure (a : α) (r : Reader) : Reads (Pure.pure a) r a r := rfl

theorem map (g : α → β) (hx : Reads x r a r₁) : Reads (g <$> x) r (g a) r₁ := by
  unfold Reads at *
  simp only [StateT.run_map, hx]
  rfl

theorem modify (g : Reader → Reader) (r : Reader) : Reads (modify g : ReadM PUnit) r ⟨⟩ (g r) :=
  rfl

end Reads

theorem reads_onTokens {step : ScanM α} {r : Reader} {a : α} {c : Cursor}
    (h : Runs step r.cursor a c) : Reads (onTokens step) r a { r with cursor := c } := by
  unfold Reads onTokens
  unfold Runs at h
  simp only [StateT.run_bind, StateT.run_get, pure_bind]
  simp only [h]
  rfl

/-- The head of the queue is sure and of kind `kind`, and the kinds `ks` follow it. -/
def Cursor.Sure (s : Cursor) (kind : TokenKind) (ks : List TokenKind) : Prop :=
  Runs needsMore s false s ∧ s.HeadIs kind ∧ Yields 15 s.skipped ks

theorem Cursor.Sure.yields {s : Cursor} {kind : TokenKind} {ks : List TokenKind} {m : Nat}
    (h : s.Sure kind ks) : Yields m s (kind :: ks) :=
  Yields.head h.1 h.2.1 h.2.2

section Tokens

variable {r : Reader} {kind : TokenKind} {ks : List TokenKind}

theorem reads_token (h : Yields 15 r.cursor (kind :: ks)) :
    ∃ t c, Reads token r t { r with cursor := c } ∧ t.kind = kind ∧ c.Sure kind ks := by
  obtain ⟨n, s', hf, hn, ⟨t, q, hq, ht⟩, hy⟩ := h
  refine ⟨t, s', reads_onTokens (runs_peekToken hf (by omega) hq), ht, ?_, ⟨t, q, hq, ht⟩, hy⟩
  cases hf.stay with
  | sure _ h₂ => exact h₂

theorem reads_token_sure (h : r.cursor.Sure kind ks) : ∃ t, Reads token r t r ∧ t.kind = kind := by
  obtain ⟨t, q, hq, ht⟩ := h.2.1
  exact ⟨t, reads_onTokens (runs_peekToken (.sure h.1 h.1) (by omega) hq), ht⟩

theorem reads_advance : Reads advance r () { r with cursor := r.cursor.skipped } :=
  reads_onTokens runs_skipToken

end Tokens

theorem reads_resumeOuter {r : Reader} {e : Expect} {rs : List Expect} (h : r.resume = e :: rs) :
    Reads resumeOuter r () { r with expect := e, resume := rs } := by
  unfold resumeOuter
  have hstate : ∀ g : Reader → Reader, g r = { r with expect := e, resume := rs } →
      Reads (modify g : ReadM PUnit) r ⟨⟩ { r with expect := e, resume := rs } :=
    fun g hg => hg ▸ Reads.modify g r
  exact hstate _ (by simp only [h])

theorem Reads.get (r : Reader) : Reads (MonadState.get : ReadM Reader) r r r := rfl

theorem Reads.set (r r' : Reader) : Reads (MonadStateOf.set r' : ReadM PUnit) r ⟨⟩ r' := rfl

/-! ### Runs of events -/

/-- Reading the events `evs` from `r`, one run of `nextEvent` each, leaves `r'`. -/
inductive Emits : Reader → List Event → Reader → Prop
  | nil (r : Reader) : Emits r [] r
  | cons {r r₁ r' : Reader} {ev : Event} {evs : List Event} :
      Reads nextEvent r (some ev) r₁ → Emits r₁ evs r' → Emits r (ev :: evs) r'

theorem Emits.append {r r₁ r₂ : Reader} {evs evs' : List Event} (h : Emits r evs r₁)
    (h' : Emits r₁ evs' r₂) : Emits r (evs ++ evs') r₂ := by
  induction h with
  | nil => exact h'
  | cons hx _ ih => exact .cons hx (ih h')

/-- Reading from `r` gives events of the kinds `K` and ends in a reader with `P`. -/
def Produces (r : Reader) (K : List EventKind) (P : Reader → Prop) : Prop :=
  ∃ evs r', Emits r evs r' ∧ evs.map Event.kind = K ∧ P r'

/-- The step `x` run from `r` gives the first event of the kinds `K`, and reading the events
after it gives the rest and ends in a reader with `P`. -/
def ProducesFrom (x : ReadM Event) (r : Reader) (K : List EventKind) (P : Reader → Prop) : Prop :=
  ∃ ev r₁ K', Reads x r ev r₁ ∧ K = ev.kind :: K' ∧ Produces r₁ K' P

section Produces

variable {r : Reader} {K K' : List EventKind} {P Q : Reader → Prop} {x : ReadM Event}

theorem Produces.nil (h : P r) : Produces r [] P := ⟨[], r, .nil r, rfl, h⟩

theorem Produces.trans (h : Produces r K Q) (hq : ∀ r', Q r' → Produces r' K' P) :
    Produces r (K ++ K') P := by
  obtain ⟨evs, r₁, he, rfl, hQ⟩ := h
  obtain ⟨evs', r', he', rfl, hP⟩ := hq r₁ hQ
  exact ⟨evs ++ evs', r', he.append he', by simp, hP⟩

theorem ProducesFrom.trans (h : ProducesFrom x r K Q) (hq : ∀ r', Q r' → Produces r' K' P) :
    ProducesFrom x r (K ++ K') P := by
  obtain ⟨ev, r₁, K₁, hx, rfl, hp⟩ := h
  exact ⟨ev, r₁, K₁ ++ K', hx, rfl, hp.trans hq⟩

theorem ProducesFrom.produces (hnext : ∀ ev r', Reads x r ev r' → Reads nextEvent r (some ev) r')
    (h : ProducesFrom x r K P) : Produces r K P := by
  obtain ⟨ev, r₁, K₁, hx, rfl, evs, r', he, hk, hp⟩ := h
  exact ⟨ev :: evs, r', .cons (hnext ev r₁ hx) he, by simp [hk], hp⟩

theorem ProducesFrom.one {ev : Event} {r₁ : Reader} (hx : Reads x r ev r₁) (hp : P r₁) :
    ProducesFrom x r [ev.kind] P :=
  ⟨ev, r₁, [], hx, rfl, .nil hp⟩

theorem ProducesFrom.bind {y : ReadM α} {f : α → ReadM Event} {a : α} {r₁ : Reader}
    (hy : Reads y r a r₁) (h : ProducesFrom (f a) r₁ K P) : ProducesFrom (y >>= f) r K P := by
  obtain ⟨ev, r₂, K₁, hx, rfl, hp⟩ := h
  exact ⟨ev, r₂, K₁, hy.bind hx, rfl, hp⟩

end Produces

/-- Where the reader stands: what it expects now and after the open nodes, where the open
collections began, and the kinds of the tokens it is given. -/
structure Reader.At (r : Reader) (e : Expect) (rs : List Expect) (ms : List Mark)
    (ks : List TokenKind) : Prop where
  expect : r.expect = e
  resume : r.resume = rs
  marks : r.marks = ms
  tokens : Yields 15 r.cursor ks

/-! ### Nodes -/

section Nodes

variable {r : Reader} {e : Expect} {rs : List Expect} {ks : List TokenKind}

theorem producesFrom_readNode_scalar {text : String} {st : ScalarStyle} {block indentless : Bool}
    (h : Yields 15 r.cursor (.scalar text st :: ks)) (hr : r.resume = e :: rs) :
    ProducesFrom (readNode block indentless) r [.scalar none none text st]
      (·.At e rs r.marks ks) := by
  obtain ⟨t, c, htok, ht, hc⟩ := reads_token h
  unfold readNode
  refine ProducesFrom.bind htok ?_
  simp only [ht, pure_bind]
  refine ProducesFrom.bind (reads_resumeOuter hr) (ProducesFrom.bind reads_advance ?_)
  exact ProducesFrom.one (Reads.pure _ _) ⟨rfl, rfl, rfl, hc.2.2⟩

theorem reads_readNode_mapping {indentless : Bool} (h : Yields 15 r.cursor (.blockMappingStart :: ks)) :
    ∃ ev c, Reads (readNode true indentless) r ev { r with cursor := c, expect := .blockMappingFirstKey } ∧
      ev.kind = .mappingStart none none false ∧ c.Sure .blockMappingStart ks := by
  obtain ⟨t, c, htok, ht, hc⟩ := reads_token h
  refine ⟨⟨.mappingStart none none false, t.start, t.stop⟩, c, ?_, rfl, hc⟩
  unfold readNode
  refine Reads.bind htok ?_
  simp only [ht, pure_bind, if_true]
  exact Reads.bind (Reads.modify _ _) (Reads.pure _ _)

theorem reads_readNode_indentless {block : Bool} (h : Yields 15 r.cursor (.blockEntry :: ks)) :
    ∃ ev c, Reads (readNode block true) r ev { r with cursor := c, expect := .indentlessSequenceEntry } ∧
      ev.kind = .sequenceStart none none false ∧ c.Sure .blockEntry ks := by
  obtain ⟨t, c, htok, ht, hc⟩ := reads_token h
  refine ⟨⟨.sequenceStart none none false, t.start, t.stop⟩, c, ?_, rfl, hc⟩
  unfold readNode
  refine Reads.bind htok ?_
  simp only [ht, pure_bind, if_true]
  exact Reads.bind (Reads.modify _ _) (Reads.pure _ _)

end Nodes

/-! ### Block mappings and indentless sequences -/

section Block

variable {r : Reader} {e : Expect} {rs : List Expect} {ks : List TokenKind} {K : List EventKind}
  {P : Reader → Prop}

theorem producesFrom_blockMappingKey_key {k₁ : TokenKind}
    (h : Yields 15 r.cursor (.key :: k₁ :: ks)) (hk : k₁ ≠ .key ∧ k₁ ≠ .value ∧ k₁ ≠ .blockEnd)
    (hnode : ∀ c, c.Sure k₁ ks →
      ProducesFrom (readNode true true) { r with cursor := c, resume := .blockMappingValue :: r.resume } K P) :
    ProducesFrom (readBlockMappingKey false) r K P := by
  obtain ⟨t, c₁, htok, ht, hc₁⟩ := reads_token h
  obtain ⟨n, c₂, hntok, hn, hc₂⟩ := reads_token (r := { r with cursor := c₁.skipped }) hc₁.2.2
  unfold readBlockMappingKey
  simp only [Bool.false_eq_true, if_false]
  refine ProducesFrom.bind htok ?_
  simp only [ht]
  refine ProducesFrom.bind reads_advance (ProducesFrom.bind hntok ?_)
  simp only [hn]
  split
  · exact absurd rfl hk.1
  · exact absurd rfl hk.2.1
  · exact absurd rfl hk.2.2
  · exact ProducesFrom.bind (Reads.modify _ _) (hnode c₂ hc₂)

theorem producesFrom_blockMappingKey_end {m : Mark} {ms : List Mark}
    (h : Yields 15 r.cursor (.blockEnd :: ks)) (hr : r.resume = e :: rs) (hm : r.marks = m :: ms) :
    ProducesFrom (readBlockMappingKey false) r [.mappingEnd] (·.At e rs ms ks) := by
  obtain ⟨t, c₁, htok, ht, hc₁⟩ := reads_token h
  unfold readBlockMappingKey
  simp only [Bool.false_eq_true, if_false]
  refine ProducesFrom.bind htok ?_
  simp only [ht]
  refine ProducesFrom.bind (reads_resumeOuter hr) ?_
  unfold popMark
  simp only [bind_assoc]
  refine ProducesFrom.bind (Reads.get _) ?_
  simp only [hm, bind_assoc, pure_bind]
  refine ProducesFrom.bind (Reads.set _ _) (ProducesFrom.bind reads_advance ?_)
  exact ProducesFrom.one (Reads.pure _ _) ⟨rfl, rfl, rfl, hc₁.2.2⟩

theorem producesFrom_blockMappingKey_first (h : r.cursor.Sure .blockMappingStart ks)
    (hk : ∀ m, ProducesFrom (readBlockMappingKey false)
      { r with cursor := r.cursor.skipped, marks := m :: r.marks } K P) :
    ProducesFrom (readBlockMappingKey true) r K P := by
  obtain ⟨t, htok, -⟩ := reads_token_sure h
  unfold readBlockMappingKey
  simp only [if_true]
  refine ProducesFrom.bind htok (ProducesFrom.bind (Reads.modify _ _) ?_)
  refine ProducesFrom.bind reads_advance ?_
  exact hk t.start

theorem producesFrom_blockMappingValue {k₁ : TokenKind}
    (h : Yields 15 r.cursor (.value :: k₁ :: ks)) (hk : k₁ ≠ .key ∧ k₁ ≠ .value ∧ k₁ ≠ .blockEnd)
    (hnode : ∀ c, c.Sure k₁ ks →
      ProducesFrom (readNode true true) { r with cursor := c, resume := .blockMappingKey :: r.resume } K P) :
    ProducesFrom readBlockMappingValue r K P := by
  obtain ⟨t, c₁, htok, ht, hc₁⟩ := reads_token h
  obtain ⟨n, c₂, hntok, hn, hc₂⟩ := reads_token (r := { r with cursor := c₁.skipped }) hc₁.2.2
  unfold readBlockMappingValue
  refine ProducesFrom.bind htok ?_
  simp only [ht]
  refine ProducesFrom.bind reads_advance (ProducesFrom.bind hntok ?_)
  simp only [hn]
  split
  · exact absurd rfl hk.1
  · exact absurd rfl hk.2.1
  · exact absurd rfl hk.2.2
  · exact ProducesFrom.bind (Reads.modify _ _) (hnode c₂ hc₂)

/-- An entry of an indentless sequence followed by a node: the node is read, to be followed by
the next entry. -/
theorem producesFrom_indentlessEntry {k₁ : TokenKind}
    (h : Yields 15 r.cursor (.blockEntry :: k₁ :: ks))
    (hk : k₁ ≠ .blockEntry ∧ k₁ ≠ .key ∧ k₁ ≠ .value ∧ k₁ ≠ .blockEnd)
    (hnode : ∀ c, c.Sure k₁ ks → ProducesFrom (readNode true false)
      { r with cursor := c, resume := .indentlessSequenceEntry :: r.resume } K P) :
    ProducesFrom readIndentlessEntry r K P := by
  obtain ⟨t, c₁, htok, ht, hc₁⟩ := reads_token h
  obtain ⟨n, c₂, hntok, hn, hc₂⟩ := reads_token (r := { r with cursor := c₁.skipped }) hc₁.2.2
  unfold readIndentlessEntry
  refine ProducesFrom.bind htok ?_
  simp only [ht]
  refine ProducesFrom.bind reads_advance (ProducesFrom.bind hntok ?_)
  simp only [hn]
  split
  · exact absurd rfl hk.1
  · exact absurd rfl hk.2.1
  · exact absurd rfl hk.2.2.1
  · exact absurd rfl hk.2.2.2
  · exact ProducesFrom.bind (Reads.modify _ _) (hnode c₂ hc₂)

theorem producesFrom_indentlessEntry_end {k₁ : TokenKind} (h : Yields 15 r.cursor (k₁ :: ks))
    (hk : k₁ ≠ .blockEntry) (hr : r.resume = e :: rs) :
    ProducesFrom readIndentlessEntry r [.sequenceEnd] (·.At e rs r.marks (k₁ :: ks)) := by
  obtain ⟨t, c₁, htok, ht, hc₁⟩ := reads_token h
  unfold readIndentlessEntry
  refine ProducesFrom.bind htok ?_
  simp only [ht]
  exact ProducesFrom.bind (reads_resumeOuter hr)
    (ProducesFrom.one (Reads.pure _ _) ⟨rfl, rfl, rfl, hc₁.yields⟩)

end Block

/-! ### What `nextEvent` runs -/

section Dispatch

variable {r r' : Reader} {ev : Event}

theorem Reads.nextEvent_blockMappingKey (he : r.expect = .blockMappingKey)
    (h : Reads (readBlockMappingKey false) r ev r') : Reads nextEvent r (some ev) r' := by
  unfold nextEvent
  refine Reads.bind (Reads.get r) ?_
  simp only [he]
  exact h.map some

theorem Reads.nextEvent_blockMappingFirstKey (he : r.expect = .blockMappingFirstKey)
    (h : Reads (readBlockMappingKey true) r ev r') : Reads nextEvent r (some ev) r' := by
  unfold nextEvent
  refine Reads.bind (Reads.get r) ?_
  simp only [he]
  exact h.map some

theorem Reads.nextEvent_blockMappingValue (he : r.expect = .blockMappingValue)
    (h : Reads readBlockMappingValue r ev r') : Reads nextEvent r (some ev) r' := by
  unfold nextEvent
  refine Reads.bind (Reads.get r) ?_
  simp only [he]
  exact h.map some

theorem Reads.nextEvent_indentlessSequenceEntry (he : r.expect = .indentlessSequenceEntry)
    (h : Reads readIndentlessEntry r ev r') : Reads nextEvent r (some ev) r' := by
  unfold nextEvent
  refine Reads.bind (Reads.get r) ?_
  simp only [he]
  exact h.map some

theorem Reads.nextEvent_streamStart (he : r.expect = .streamStart)
    (h : Reads readStreamStart r ev r') : Reads nextEvent r (some ev) r' := by
  unfold nextEvent
  refine Reads.bind (Reads.get r) ?_
  simp only [he]
  exact h.map some

theorem Reads.nextEvent_implicitDocumentStart (he : r.expect = .implicitDocumentStart)
    (h : Reads (readDocumentStart true) r ev r') : Reads nextEvent r (some ev) r' := by
  unfold nextEvent
  refine Reads.bind (Reads.get r) ?_
  simp only [he]
  exact h.map some

theorem Reads.nextEvent_documentStart (he : r.expect = .documentStart)
    (h : Reads (readDocumentStart false) r ev r') : Reads nextEvent r (some ev) r' := by
  unfold nextEvent
  refine Reads.bind (Reads.get r) ?_
  simp only [he]
  exact h.map some

theorem Reads.nextEvent_blockNode (he : r.expect = .blockNode)
    (h : Reads (readNode true false) r ev r') : Reads nextEvent r (some ev) r' := by
  unfold nextEvent
  refine Reads.bind (Reads.get r) ?_
  simp only [he]
  exact h.map some

theorem Reads.nextEvent_documentEnd (he : r.expect = .documentEnd)
    (h : Reads readDocumentEnd r ev r') : Reads nextEvent r (some ev) r' := by
  unfold nextEvent
  refine Reads.bind (Reads.get r) ?_
  simp only [he]
  exact h.map some

theorem Reads.nextEvent_finished (he : r.expect = .finished) : Reads nextEvent r none r := by
  unfold nextEvent
  refine Reads.bind (Reads.get r) ?_
  simp only [he]
  exact Reads.pure _ _

end Dispatch

/-! ### The events of written entries -/

def Written.event : Written → EventKind
  | .plain p => .scalar none none p .plain
  | .quoted t => .scalar none none t .doubleQuoted

theorem Written.token_starts_node (w : Written) :
    w.token ≠ .blockEntry ∧ w.token ≠ .key ∧ w.token ≠ .value ∧ w.token ≠ .blockEnd := by
  cases w <;> simp [Written.token]

/-- The events of mapping entries, between the start and the end of their mapping. -/
def entriesEvents : List (String × Value) → List EventKind
  | [] => []
  | (k, .map inner) :: es =>
    .scalar none none k .plain :: .mappingStart none none false ::
      (entriesEvents inner ++ .mappingEnd :: entriesEvents es)
  | (k, .seq items) :: es =>
    .scalar none none k .plain :: .sequenceStart none none false ::
      (items.map (fun x => (scalarWritten x).event) ++ .sequenceEnd :: entriesEvents es)
  | (k, v) :: es => .scalar none none k .plain :: (scalarWritten v).event :: entriesEvents es

@[simp] theorem entriesEvents_nil : entriesEvents [] = [] := by
  simp [entriesEvents]

section Entries

variable {r : Reader} {e : Expect} {rs : List Expect} {ms : List Mark} {ks : List TokenKind}

theorem producesFrom_readNode_written {w : Written} {block indentless : Bool}
    (h : Yields 15 r.cursor (w.token :: ks)) (hr : r.resume = e :: rs) :
    ProducesFrom (readNode block indentless) r [w.event] (·.At e rs r.marks ks) := by
  cases w with
  | plain p => exact producesFrom_readNode_scalar h hr
  | quoted t => exact producesFrom_readNode_scalar h hr

theorem produces_items {items : List Value} {k₁ : TokenKind} (hk : k₁ ≠ .blockEntry) :
    ∀ {r : Reader}, r.At .indentlessSequenceEntry (e :: rs) ms
      (items.flatMap (fun x => [.blockEntry, (scalarWritten x).token]) ++ k₁ :: ks) →
    Produces r (items.map (fun x => (scalarWritten x).event) ++ [.sequenceEnd])
      (·.At e rs ms (k₁ :: ks)) := by
  induction items with
  | nil =>
    intro r hr
    refine ProducesFrom.produces (fun _ _ => Reads.nextEvent_indentlessSequenceEntry hr.expect) ?_
    rw [← hr.marks]
    exact producesFrom_indentlessEntry_end hr.tokens hk hr.resume
  | cons x xs ih =>
    intro r hr
    refine ProducesFrom.produces (fun _ _ => Reads.nextEvent_indentlessSequenceEntry hr.expect) ?_
    refine producesFrom_indentlessEntry hr.tokens (scalarWritten x).token_starts_node
      fun c hc => ?_
    refine (producesFrom_readNode_written hc.yields rfl).trans fun r₁ hr₁ => ih ?_
    exact ⟨hr₁.expect, hr₁.resume.trans hr.resume, hr₁.marks.trans hr.marks, hr₁.tokens⟩

theorem producesFrom_entry {k : String} {k₁ : TokenKind} {V : List EventKind} {P : Reader → Prop}
    (h : Yields 15 r.cursor (.key :: .scalar k .plain :: .value :: k₁ :: ks))
    (hk₁ : k₁ ≠ .key ∧ k₁ ≠ .value ∧ k₁ ≠ .blockEnd) (hr : r.resume = e :: rs)
    (hvalue : ∀ r' : Reader, r'.resume = .blockMappingKey :: e :: rs → r'.marks = r.marks →
      r'.cursor.Sure k₁ ks → ProducesFrom (readNode true true) r' V P) :
    ProducesFrom (readBlockMappingKey false) r (.scalar none none k .plain :: V) P :=
  producesFrom_blockMappingKey_key h (by simp) fun _ hc =>
    (producesFrom_readNode_scalar hc.yields rfl).trans fun _ hr₁ =>
      ProducesFrom.produces (fun _ _ => Reads.nextEvent_blockMappingValue hr₁.expect)
        (producesFrom_blockMappingValue hr₁.tokens hk₁ fun _ hc' =>
          hvalue _ (by rw [hr₁.resume, hr]) hr₁.marks hc')

theorem Entries.tokens_head {es : List (String × Value)} (h : Entries es) (ks : List TokenKind) :
    ∃ k₁ rest, entriesTokens es ++ .blockEnd :: ks = k₁ :: rest ∧ k₁ ≠ .blockEntry := by
  cases h with
  | nil => exact ⟨.blockEnd, ks, by simp [entriesTokens], by simp⟩
  | scalar _ hv _ => cases hv <;> exact ⟨.key, _, by simp [entriesTokens]; rfl, by simp⟩
  | seq => exact ⟨.key, _, by simp [entriesTokens]; rfl, by simp⟩
  | map => exact ⟨.key, _, by simp [entriesTokens]; rfl, by simp⟩

theorem producesFrom_entries {es : List (String × Value)} (h : Entries es) :
    ∀ {r : Reader} {e : Expect} {rs : List Expect} {m : Mark} {ms : List Mark}
      {ks : List TokenKind}, r.resume = e :: rs → r.marks = m :: ms →
      Yields 15 r.cursor (entriesTokens es ++ .blockEnd :: ks) →
      ProducesFrom (readBlockMappingKey false) r (entriesEvents es ++ [.mappingEnd])
        (·.At e rs ms ks) := by
  induction h with
  | nil =>
    intro r e rs m ms ks hr hm hy
    rw [entriesTokens, List.nil_append] at hy
    rw [entriesEvents, List.nil_append]
    exact producesFrom_blockMappingKey_end hy hr hm
  | @scalar k v es _ hv _ ih =>
    intro r e rs m ms ks hr hm hy
    rw [show entriesEvents ((k, v) :: es) ++ [.mappingEnd] = .scalar none none k .plain ::
      ([(scalarWritten v).event] ++ (entriesEvents es ++ [.mappingEnd])) by
        cases hv <;> simp [entriesEvents]]
    replace hy : Yields 15 r.cursor (.key :: .scalar k .plain :: .value :: (scalarWritten v).token ::
        (entriesTokens es ++ .blockEnd :: ks)) := by
      cases hv <;> simpa [entriesTokens] using hy
    refine producesFrom_entry hy (scalarWritten v).token_starts_node.2 hr
      fun r' hr' hm' hc => (producesFrom_readNode_written hc.yields hr').trans fun r₂ hr₂ => ?_
    exact ProducesFrom.produces (fun _ _ => Reads.nextEvent_blockMappingKey hr₂.expect)
      (ih hr₂.resume (hr₂.marks.trans (hm'.trans hm)) hr₂.tokens)
  | @seq k items es _ hne _ hes ih =>
    intro r e rs m ms ks hr hm hy
    rw [show entriesEvents ((k, .seq items) :: es) ++ [.mappingEnd] = .scalar none none k .plain ::
      .sequenceStart none none false :: ((items.map (fun x => (scalarWritten x).event) ++
        [.sequenceEnd]) ++ (entriesEvents es ++ [.mappingEnd])) by simp [entriesEvents]]
    obtain ⟨k₁, rest, hrest, hk₁⟩ := hes.tokens_head ks
    obtain ⟨x, xs, rfl⟩ := List.exists_cons_of_ne_nil hne
    simp only [entriesTokens, List.flatMap_cons, List.cons_append, List.nil_append,
      List.append_assoc, hrest] at hy
    refine producesFrom_entry hy (by simp) hr fun r' hr' hm' hc => ?_
    obtain ⟨ev, c, hread, hkind, hc'⟩ := reads_readNode_indentless hc.yields
    refine ⟨ev, _, _, hread, by rw [hkind], ?_⟩
    have htok : Yields 15 c ((x :: xs).flatMap (fun x => [.blockEntry, (scalarWritten x).token]) ++
        k₁ :: rest) := by
      simpa only [List.flatMap_cons, List.cons_append, List.nil_append, List.append_assoc]
        using hc'.yields
    refine (produces_items (r := { r' with cursor := c, expect := .indentlessSequenceEntry }) hk₁
      ⟨rfl, hr', hm'.trans hm, htok⟩).trans fun r₂ hr₂ => ?_
    rw [← hrest] at hr₂
    exact ProducesFrom.produces (fun _ _ => Reads.nextEvent_blockMappingKey hr₂.expect)
      (ih hr₂.resume hr₂.marks hr₂.tokens)
  | @map k inner es _ _ _ _ ihi ih =>
    intro r e rs m ms ks hr hm hy
    rw [show entriesEvents ((k, .map inner) :: es) ++ [.mappingEnd] = .scalar none none k .plain ::
      .mappingStart none none false :: ((entriesEvents inner ++ [.mappingEnd]) ++
        (entriesEvents es ++ [.mappingEnd])) by simp [entriesEvents]]
    simp only [entriesTokens, List.cons_append, List.nil_append, List.append_assoc] at hy
    refine producesFrom_entry hy (by simp) hr fun r' hr' hm' hc => ?_
    obtain ⟨ev, c, hread, hkind, hc'⟩ := reads_readNode_mapping hc.yields
    refine ⟨ev, _, _, hread, by rw [hkind], ?_⟩
    refine (ProducesFrom.produces (r := { r' with cursor := c, expect := .blockMappingFirstKey })
      (fun _ _ => Reads.nextEvent_blockMappingFirstKey rfl)
      (producesFrom_blockMappingKey_first hc' fun _ => ihi hr' rfl hc'.2.2)).trans
        fun r₂ hr₂ => ?_
    exact ProducesFrom.produces (fun _ _ => Reads.nextEvent_blockMappingKey hr₂.expect)
      (ih hr₂.resume (hr₂.marks.trans (hm'.trans hm)) hr₂.tokens)

end Entries



/-! ### The document -/

section Document

variable {r : Reader} {ks : List TokenKind}

theorem reads_readDirectivesFrom_none (h : r.cursor.Sure .blockMappingStart ks) :
    ∀ (n : Nat) (b : Bool), Reads (readDirectivesFrom n b) r b r
  | 0, b => Reads.pure b r
  | n + 1, b => by
    obtain ⟨t, htok, ht⟩ := reads_token_sure h
    unfold readDirectivesFrom
    refine Reads.bind htok ?_
    simp only [ht]
    exact Reads.pure b r

theorem reads_skipDocumentEnds_none (h : r.cursor.Sure .streamEnd ks) :
    ∀ n : Nat, Reads (skipDocumentEnds n) r () r
  | 0 => Reads.pure () r
  | n + 1 => by
    obtain ⟨t, htok, ht⟩ := reads_token_sure h
    unfold skipDocumentEnds
    refine Reads.bind htok ?_
    simp only [ht]
    exact Reads.pure () r

theorem producesFrom_readStreamStart (h : Yields 15 r.cursor (.streamStart :: ks)) :
    ProducesFrom readStreamStart r [.streamStart] (·.At .implicitDocumentStart r.resume r.marks ks) := by
  obtain ⟨t, c, htok, ht, hc⟩ := reads_token h
  unfold readStreamStart
  refine ProducesFrom.bind htok ?_
  simp only [ht]
  refine ProducesFrom.bind (Reads.modify _ _) (ProducesFrom.bind reads_advance ?_)
  exact ProducesFrom.one (Reads.pure _ _) ⟨rfl, rfl, rfl, hc.2.2⟩

/-- A document that starts with a block mapping starts implicitly, with the default tag
handles, to be followed by its end. -/
theorem producesFrom_readDocumentStart_implicit (h : Yields 15 r.cursor (.blockMappingStart :: ks)) :
    ProducesFrom (readDocumentStart true) r [.documentStart true]
      (·.At .blockNode (.documentEnd :: r.resume) r.marks (.blockMappingStart :: ks)) := by
  obtain ⟨t, c, htok, ht, hc⟩ := reads_token h
  unfold readDocumentStart readDirectives
  refine ProducesFrom.bind (Reads.get _) ?_
  simp only [Bool.not_true, Bool.false_eq_true, if_false]
  refine ProducesFrom.bind htok ?_
  simp only [ht, Bool.not_false, Bool.and_self, if_true, bind_assoc]
  refine ProducesFrom.bind (Reads.get _) ?_
  refine ProducesFrom.bind (reads_readDirectivesFrom_none hc _ _) ?_
  refine ProducesFrom.bind (Reads.modify _ _) (ProducesFrom.bind (Reads.pure _ _) ?_)
  refine ProducesFrom.bind (Reads.modify _ _) (ProducesFrom.bind (Reads.modify _ _) ?_)
  exact ProducesFrom.one (Reads.pure _ _) ⟨rfl, rfl, rfl, hc.yields⟩

theorem producesFrom_readDocumentEnd (h : Yields 15 r.cursor (.streamEnd :: ks)) :
    ProducesFrom readDocumentEnd r [.documentEnd true]
      (fun r' => r'.expect = .documentStart ∧ r'.cursor.Sure .streamEnd ks) := by
  obtain ⟨t, c, htok, ht, hc⟩ := reads_token h
  unfold readDocumentEnd
  refine ProducesFrom.bind htok ?_
  have hne : decide (TokenKind.streamEnd = TokenKind.documentEnd) = false := by decide
  simp only [ht, hne, Bool.false_eq_true, if_false, Bool.not_false]
  refine ProducesFrom.bind (Reads.modify _ _) (ProducesFrom.bind (Reads.modify _ _) ?_)
  exact ProducesFrom.one (Reads.pure _ _) ⟨rfl, hc⟩

theorem producesFrom_readDocumentStart_end (h : r.cursor.Sure .streamEnd ks) :
    ProducesFrom (readDocumentStart false) r [.streamEnd] (·.expect = .finished) := by
  obtain ⟨t, htok, ht⟩ := reads_token_sure h
  unfold readDocumentStart
  refine ProducesFrom.bind (Reads.get _) ?_
  simp only [Bool.not_false, if_true]
  refine ProducesFrom.bind (reads_skipDocumentEnds_none h _) (ProducesFrom.bind htok ?_)
  simp only [ht, Bool.false_and, Bool.false_eq_true, if_false]
  refine ProducesFrom.bind (Reads.modify _ _) (ProducesFrom.bind reads_advance ?_)
  exact ProducesFrom.one (Reads.pure _ _) rfl

theorem produces_mapping_document {es : List (String × Value)} (h : Entries es) {s : Cursor}
    (hy : Yields 15 s (.streamStart :: .blockMappingStart ::
      (entriesTokens es ++ [.blockEnd, .streamEnd]))) :
    Produces ⟨s, .streamStart, [], [], []⟩ (.streamStart :: .documentStart true ::
      .mappingStart none none false :: (entriesEvents es ++ [.mappingEnd, .documentEnd true, .streamEnd]))
      (·.expect = .finished) := by
  rw [show .streamStart :: .documentStart true :: .mappingStart none none false ::
      (entriesEvents es ++ [.mappingEnd, .documentEnd true, .streamEnd]) =
      [.streamStart] ++ ([.documentStart true] ++ (.mappingStart none none false ::
        ((entriesEvents es ++ [.mappingEnd]) ++ ([.documentEnd true] ++ [EventKind.streamEnd]))))
    by simp]
  refine (ProducesFrom.produces (fun _ _ => Reads.nextEvent_streamStart rfl)
    (producesFrom_readStreamStart hy)).trans fun r₁ hr₁ => ?_
  refine (ProducesFrom.produces (fun _ _ => Reads.nextEvent_implicitDocumentStart hr₁.expect)
    (producesFrom_readDocumentStart_implicit hr₁.tokens)).trans fun r₂ hr₂ => ?_
  obtain ⟨ev, c, hread, hkind, hc⟩ := reads_readNode_mapping hr₂.tokens
  refine ProducesFrom.produces (fun _ _ => Reads.nextEvent_blockNode hr₂.expect)
    ⟨ev, _, _, hread, by rw [hkind], ?_⟩
  have hentries := producesFrom_blockMappingKey_first
    (r := { r₂ with cursor := c, expect := .blockMappingFirstKey }) hc
    fun _ => producesFrom_entries h (by rw [hr₂.resume, hr₁.resume]) rfl hc.2.2
  refine (ProducesFrom.produces (fun _ _ => Reads.nextEvent_blockMappingFirstKey rfl)
    hentries).trans fun r₃ hr₃ => ?_
  refine (ProducesFrom.produces (fun _ _ => Reads.nextEvent_documentEnd hr₃.expect)
    (producesFrom_readDocumentEnd hr₃.tokens)).trans fun r₄ hr₄ => ?_
  exact ProducesFrom.produces (fun _ _ => Reads.nextEvent_documentStart hr₄.1)
    (producesFrom_readDocumentStart_end hr₄.2)

end Document

/-! ### The events of a text -/

theorem listOf_go_emits {r r' : Reader} {evs : List Event} (h : Emits r evs r')
    (hend : Reads nextEvent r' none r') :
    ∀ (fuel : Nat) (acc : Array Event), evs.length < fuel →
      Event.listOf.go fuel r acc = (acc.toList ++ evs, none) := by
  induction h with
  | nil r =>
    intro fuel acc hfuel
    obtain ⟨fuel, rfl⟩ : ∃ n, fuel = n + 1 := ⟨fuel - 1, by simp at hfuel; omega⟩
    unfold Reads at hend
    simp [Event.listOf.go, hend]
  | cons hx _ ih =>
    intro fuel acc hfuel
    obtain ⟨fuel, rfl⟩ : ∃ n, fuel = n + 1 := ⟨fuel - 1, by simp at hfuel; omega⟩
    unfold Reads at hx
    simp only [Event.listOf.go, hx]
    rw [ih hend fuel _ (by simp at hfuel; omega)]
    simp

theorem entriesEvents_length_le {es : List (String × Value)} (h : Entries es) :
    ∀ c : Nat, (entriesEvents es).length ≤ 3 * (entriesLines c es).length := by
  induction h with
  | nil => intro c; simp [entriesEvents, entriesLines]
  | scalar _ hv _ ih =>
    intro c
    have := ih c
    cases hv <;> simp [entriesEvents, entriesLines] <;> omega
  | seq _ _ _ _ ih =>
    intro c
    have := ih c
    simp [entriesEvents, entriesLines]
    omega
  | map _ _ _ _ ihi ih =>
    intro c
    have := ih c
    have := ihi (c + 2)
    simp [entriesEvents, entriesLines]
    omega

theorem length_le_flatMap_chars (ls : List Line) : ls.length ≤ (ls.flatMap Line.chars).length := by
  induction ls with
  | nil => simp
  | cons l ls ih =>
    have hl : 1 ≤ l.chars.length := by simp [Line.chars]; omega
    rw [List.flatMap_cons, List.length_append, List.length_cons]
    omega

/-- A block mapping written as text is read back as the events of its entries, with nothing
after the end of the stream. -/
theorem listOf_mapping {es : List (String × Value)} (h : Entries es) (hne : es ≠ []) :
    ∃ evs, Event.listOf (Value.map es).toYaml = (evs, none) ∧
      evs.map Event.kind = .streamStart :: .documentStart true :: .mappingStart none none false ::
        (entriesEvents es ++ [.mappingEnd, .documentEnd true, .streamEnd]) := by
  obtain ⟨s, hs, htext, hy⟩ := yields_mapping h hne
  obtain ⟨evs, r', hemits, hkinds, hfin⟩ := produces_mapping_document h (hy.mono (by omega))
  refine ⟨evs, ?_, hkinds⟩
  have hlen : evs.length < 4 * s.text.size + 16 := by
    have hk := congrArg List.length hkinds
    have hl := Nat.le_trans (entriesEvents_length_le h 0)
      (Nat.mul_le_mul_left 3 (length_le_flatMap_chars (entriesLines 0 es)))
    rw [← toYaml_map_text h] at hl
    simp only [List.length_map, List.length_cons, List.length_append, List.length_nil] at hk
    simp only [htext, List.size_toArray]
    omega
  unfold Event.listOf
  rw [hs]
  exact listOf_go_emits hemits (Reads.nextEvent_finished hfin) _ _ hlen

end ComponentSync.Yaml
