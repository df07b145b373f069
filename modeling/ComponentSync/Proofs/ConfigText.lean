import ComponentSync.Config.Read
import ComponentSync.Proofs.YamlDecode
import ComponentSync.Proofs.MomentText
import ComponentSync.Proofs.IndexRoundTrip
/-! The text of a configuration file read back. A configuration is written as a block mapping
whose keys are lower-case words (`KeyWord`), so each key stands plain in the text and is read as
the field it names; `LocalConfig.ofYaml_toYaml` says that the text of a configuration is read back
as that configuration, provided its version and ports are within their bounds and its moments are
well formed. Conversely, whatever text a configuration is read from, it is within those bounds
(`LocalConfig.ofYaml_inRange`): `Decoder.Gives dec P` says that all `dec` reads satisfies `P`,
and a record's invariant is carried field by field through its entries (`readEntriesFrom_keeps`). -/
namespace ComponentSync
open Yaml

/-! ### Keys -/

/-- A word of lower-case letters and underscores, starting with a letter: how the keys of a
configuration file are spelled. -/
def KeyWord (s : String) : Prop :=
  ∃ c cs, s.toList = c :: cs ∧ c.isLower = true ∧ (cs.all fun d => d.isLower || d == '_') = true

theorem afterPrefix_of_head {s pre : String} {c d : Char} {cs ds : List Char}
    (hs : s.toList = c :: cs) (hp : pre.toList = d :: ds) (hcd : c ≠ d) : afterPrefix s pre = none :=
  afterPrefix_none fun h => hcd (by rw [hs, hp] at h; exact (List.cons_prefix_cons.mp h).1.symm)

theorem beq_of_head {s t : String} {c d : Char} {cs ds : List Char}
    (hs : s.toList = c :: cs) (ht : t.toList = d :: ds) (hcd : c ≠ d) : (s == t) = false := by
  simp only [beq_eq_false_iff_ne]
  rintro rfl
  rw [hs] at ht
  exact hcd (List.cons.inj ht).1

namespace KeyWord

variable {s : String}

theorem head (h : KeyWord s) : ∃ c cs, s.toList = c :: cs ∧ 97 ≤ c.toNat ∧ c.toNat ≤ 122 := by
  obtain ⟨c, cs, hs, hc, -⟩ := h
  simp only [Char.isLower, Bool.and_eq_true, decide_eq_true_eq] at hc
  exact ⟨c, cs, hs, hc⟩

theorem ne_of_lt {c d : Char} (hc : 97 ≤ c.toNat) (hd : d.toNat < 97) : c ≠ d := by
  rintro rfl
  omega

theorem readRadix_none (h : KeyWord s) (max : Nat) : readRadix 10 max s = none := by
  obtain ⟨c, cs, hs, hlo, hhi⟩ := h.head
  have hplus : c ≠ '+' := ne_of_lt hlo (by decide)
  unfold readRadix
  rw [hs]
  split
  · next heq => exact absurd (List.cons.inj heq).1 hplus
  · simp only [List.isEmpty_cons, Bool.false_eq_true, if_false, List.foldl_cons]
    have hfirst : (if '0' ≤ c && c ≤ '9' then some (c.toNat - '0'.toNat)
        else if 'a' ≤ c && c ≤ 'z' then some (c.toNat - 'a'.toNat + 10)
        else if 'A' ≤ c && c ≤ 'Z' then some (c.toNat - 'A'.toNat + 10) else none) =
        some (c.toNat - 87) := by
      simp only [Char.le_iff_toNat_le, Bool.and_eq_true, decide_eq_true_eq]
      simp [show ('9' : Char).toNat = 57 from rfl, show ('a' : Char).toNat = 97 from rfl,
        show ('z' : Char).toNat = 122 from rfl, show ('0' : Char).toNat = 48 from rfl]
      rw [if_neg (by omega), if_pos ⟨hlo, hhi⟩]
      congr 1
      omega
    simp only [Option.bind_some, hfirst]
    rw [if_neg (by simp only [Bool.and_eq_true, decide_eq_true_eq]; omega)]
    generalize cs = ds
    induction ds with
    | nil => rfl
    | cons d ds ih => exact ih

theorem mem (h : KeyWord s) : ∀ d ∈ s.toList, (97 ≤ d.toNat ∧ d.toNat ≤ 122) ∨ d = '_' := by
  obtain ⟨c, cs, hs, hc, hcs⟩ := h
  intro d hd
  rw [hs] at hd
  simp only [Char.isLower, Bool.and_eq_true, decide_eq_true_eq] at hc
  rcases List.mem_cons.mp hd with rfl | hd
  · exact .inl hc
  · have := List.all_eq_true.mp hcs d hd
    simp only [Char.isLower, Bool.or_eq_true, Bool.and_eq_true, decide_eq_true_eq,
      beq_iff_eq] at this
    exact this

theorem unsignedOfText_none (h : KeyWord s) (max : Nat) : unsignedOfText max s = none := by
  obtain ⟨c, cs, hs, hlo, -⟩ := h.head
  have hp : afterPrefix s "+" = none := afterPrefix_of_head hs rfl (ne_of_lt hlo (by decide))
  have hx : afterPrefix s "0x" = none := afterPrefix_of_head hs rfl (ne_of_lt hlo (by decide))
  have ho : afterPrefix s "0o" = none := afterPrefix_of_head hs rfl (ne_of_lt hlo (by decide))
  have hb : afterPrefix s "0b" = none := afterPrefix_of_head hs rfl (ne_of_lt hlo (by decide))
  unfold unsignedOfText
  simp only [hp, Option.getD_none, hx, ho, hb, Option.bind_none, h.readRadix_none]
  split <;> simp

theorem signedOfText_none (h : KeyWord s) (max : Nat) : signedOfText max s = none := by
  obtain ⟨c, cs, hs, hlo, -⟩ := h.head
  have hx : afterPrefix s "-0x" = none := afterPrefix_of_head hs rfl (ne_of_lt hlo (by decide))
  have ho : afterPrefix s "-0o" = none := afterPrefix_of_head hs rfl (ne_of_lt hlo (by decide))
  have hb : afterPrefix s "-0b" = none := afterPrefix_of_head hs rfl (ne_of_lt hlo (by decide))
  have hr : readSignedRadix 10 max s = none := by
    unfold readSignedRadix
    rw [hs]
    split
    · next heq => exact absurd (List.cons.inj heq).1 (ne_of_lt hlo (by decide))
    · simp [h.readRadix_none]
  unfold signedOfText
  simp only [hx, ho, hb, Option.bind_none, hr]
  split <;> rfl

theorem digitsButNotNumber_false (h : KeyWord s) : digitsButNotNumber s = false := by
  obtain ⟨c, cs, hs, hlo, -⟩ := h.head
  unfold digitsButNotNumber
  rw [hs]
  split
  · next heq => exact absurd (List.cons.inj heq).1 (ne_of_lt hlo (by decide))
  · next heq => exact absurd (List.cons.inj heq).1 (ne_of_lt hlo (by decide))
  · simp [ne_of_lt hlo (by decide : ('0' : Char).toNat < 97)]

theorem floatOfText_none (h : KeyWord s) : floatOfText s = none := by
  obtain ⟨c, cs, hs, hlo, hhi⟩ := h.head
  have hdot : c ≠ '.' := ne_of_lt hlo (by decide)
  have hp : afterPrefix s "+" = none := afterPrefix_of_head hs rfl (ne_of_lt hlo (by decide))
  have hplus : s.startsWith "+" = false := by
    rw [String.startsWith_string_eq_false_iff, hs]
    exact fun hpre => ne_of_lt hlo (by decide) (List.cons_prefix_cons.mp hpre).1.symm
  have hdigit : c.isDigit = false := by
    simp only [Char.isDigit, Bool.and_eq_false_iff, decide_eq_false_iff_not]
    right
    show ¬ c.toNat ≤ 57
    omega
  have hparts : decimalParts (c :: cs) = none := by
    simp only [decimalParts, List.takeWhile_cons, List.dropWhile_cons, hdigit, Bool.false_eq_true,
      if_false]
    simp [hdot]
  -- the words of infinities and not-a-number start with a point or a sign
  have hq : ∀ t : String, ∀ d ds, t.toList = d :: ds → d.toNat < 97 → (s == t) = false :=
    fun t d ds ht hd => beq_of_head hs ht (ne_of_lt hlo hd)
  unfold floatOfText
  simp only [hp, Option.getD_none, hplus, Bool.false_and, Bool.false_eq_true, if_false,
    hq ".inf" _ _ rfl (by decide), hq ".Inf" _ _ rfl (by decide), hq ".INF" _ _ rfl (by decide),
    hq "-.inf" _ _ rfl (by decide), hq "-.Inf" _ _ rfl (by decide), hq "-.INF" _ _ rfl (by decide),
    hq ".nan" _ _ rfl (by decide), hq ".NaN" _ _ rfl (by decide), hq ".NAN" _ _ rfl (by decide),
    Bool.or_self, hs]
  split
  · next heq => exact absurd (List.cons.inj heq).1 (ne_of_lt hlo (by decide))
  · next heq => exact absurd (List.cons.inj heq).1 (ne_of_lt hlo (by decide))
  · simp [hparts]

theorem plainValue_eq (h : KeyWord s) (hn : isNullText s = false) (hb : boolOfText s = none) :
    plainValue s = .str s := by
  obtain ⟨c, cs, hs, -⟩ := h.head
  have he : s.isEmpty = false := by
    rw [Bool.eq_false_iff]
    intro he
    simp [String.isEmpty_iff.mp he] at hs
  simp [plainValue, he, hn, hb, integerOfText, h.unsignedOfText_none, h.signedOfText_none,
    h.digitsButNotNumber_false, h.floatOfText_none]

theorem isAlphanum_of_lower {d : Char} (h : 97 ≤ d.toNat ∧ d.toNat ≤ 122) : d.isAlphanum = true := by
  simp only [Char.isAlphanum, Char.isAlpha, Char.isLower, Char.isUpper, Bool.or_eq_true,
    Bool.and_eq_true, decide_eq_true_eq]
  exact .inl (.inr h)

theorem plainSafe (h : KeyWord s) (hn : isNullText s = false) (hb : boolOfText s = none) :
    isPlainSafe s = true := by
  obtain ⟨c, cs, hs, hlo, hhi⟩ := h.head
  have hmem := h.mem
  have hend : s.endsWith ":" = false := by
    rw [Bool.eq_false_iff]
    intro he
    rw [String.endsWith_eq_endsWith_toSlice, String.Slice.endsWith_string_iff] at he
    obtain ⟨t, ht⟩ := he
    simp only [String.copy_toSlice] at ht
    have hcolon := hmem ':' (by rw [← ht]; simp)
    rcases hcolon with ⟨h1, -⟩ | h2
    · exact absurd h1 (by decide)
    · exact absurd h2 (by decide)
  have hdots : s.startsWith "..." = false := by
    rw [String.startsWith_string_eq_false_iff, hs]
    exact fun hpre => ne_of_lt hlo (by decide) (List.cons_prefix_cons.mp hpre).1.symm
  unfold isPlainSafe
  simp only [hs, hend, hdots, h.plainValue_eq hn hb, isAlphanum_of_lower ⟨hlo, hhi⟩,
    Bool.true_or, Bool.true_and, Bool.not_false, Bool.and_true]
  rw [List.all_eq_true]
  intro d hd
  rcases hmem d (hs ▸ hd) with hl | rfl
  · simp [isAlphanum_of_lower hl]
  · simp [String.contains]

theorem plainKey (h : KeyWord s) (hn : isNullText s = false) (hb : boolOfText s = none)
    (hl : utf8Length s.toList ≤ 1024) : PlainKey s := by
  obtain ⟨c, cs, hs, hlo, -⟩ := h.head
  exact ⟨h.plainSafe hn hb, by simp [hs, ne_of_lt hlo (by decide : ('.' : Char).toNat < 97)], hl⟩

end KeyWord

/-! ### Keys of the configuration -/

/-- The keys of a command, of the settings, and of a configuration file, in the order they are
written. -/
def commandKeys : List String := ["command", "workdir"]

def settingsKeys : List String :=
  ["name", "application", "project", "source_type", "source_path", "image", "build_container",
    "run_container", "destination", "mirror_roots", "build", "run", "reload", "ports", "ignores",
    "storage_size"]

def configKeys : List String := ["version", "component", "created_at", "updated_at"]

theorem configKeys_plain : ∀ k ∈ commandKeys ++ settingsKeys ++ configKeys, PlainKey k := by
  simp only [commandKeys, settingsKeys, configKeys, List.cons_append, List.nil_append,
    List.mem_cons, List.not_mem_nil, or_false]
  rintro k (rfl | rfl | rfl | rfl | rfl | rfl | rfl | rfl | rfl | rfl | rfl | rfl | rfl | rfl |
    rfl | rfl | rfl | rfl | rfl | rfl | rfl | rfl)
  all_goals exact KeyWord.plainKey ⟨_, _, rfl, rfl, rfl⟩ rfl rfl (by decide)

theorem Yaml.Entries.append {es es' : List (String × Value)} (h : Entries es) (h' : Entries es') :
    Entries (es ++ es') := by
  induction h with
  | nil => exact h'
  | scalar hk hv _ ih => exact .scalar hk hv ih
  | seq hk hne hs _ ih => exact .seq hk hne hs ih
  | map hk hne hi _ _ ih => exact .map hk hne hi ih

theorem Yaml.Entries.of_map_str {k : String} {x : Option String} {v : Value} (hk : PlainKey k)
    (hv : x.map Value.str = some v) : Entries [(k, v)] := by
  obtain ⟨t, -, rfl⟩ := Option.map_eq_some_iff.mp hv
  exact .scalar hk (.str t) .nil

theorem Yaml.Entries.strs {k : String} {l : List String} (hk : PlainKey k) (hl : ¬ l.isEmpty = true) :
    Entries [(k, Value.strs l)] :=
  .seq hk (by simpa [List.isEmpty_iff] using hl) (by simp [List.mem_map]; exact fun t _ => .str t) .nil

theorem CommandSpec.toValue_entries (c : CommandSpec) :
    ∃ es, c.toValue = .map es ∧ es ≠ [] ∧ Entries es := by
  unfold CommandSpec.toValue
  refine ⟨_, rfl, by simp, .append (.scalar (configKeys_plain "command" (by decide)) (.str _) .nil) ?_⟩
  split
  · exact .scalar (configKeys_plain "workdir" (by decide)) (.str _) .nil
  · exact .nil

theorem Yaml.Entries.of_map_command {k : String} {x : Option CommandSpec} {v : Value}
    (hk : PlainKey k) (hv : x.map CommandSpec.toValue = some v) : Entries [(k, v)] := by
  obtain ⟨c, -, rfl⟩ := Option.map_eq_some_iff.mp hv
  obtain ⟨es, hc, hne, hes⟩ := c.toValue_entries
  rw [hc]
  exact .map hk hne hes .nil

theorem ComponentSettings.toValue_entries (s : ComponentSettings) :
    ∃ es, s.toValue = .map es ∧ es ≠ [] ∧ Entries es := by
  unfold ComponentSettings.toValue
  simp only
  refine ⟨_, rfl, by simp, ?_⟩
  repeat' apply Entries.append
  all_goals try split
  all_goals first
    | exact .nil
    | exact .scalar (configKeys_plain _ (by decide)) (.str _) .nil
    | exact .of_map_str (configKeys_plain _ (by decide)) ‹_›
    | exact .of_map_command (configKeys_plain _ (by decide)) ‹_›
    | exact .strs (configKeys_plain _ (by decide)) ‹_›
    | exact .scalar (configKeys_plain _ (by decide)) (.str _) (.scalar (configKeys_plain _ (by decide)) (.str _) .nil)
    | exact .seq (configKeys_plain _ (by decide)) (by simp_all [List.isEmpty_iff])
        (by simp only [List.mem_map]; rintro _ ⟨p, -, rfl⟩; exact .nat p) .nil

theorem LocalConfig.toValue_entries (c : LocalConfig) :
    ∃ es, c.toValue = .map es ∧ es ≠ [] ∧ Entries es := by
  obtain ⟨inner, hv, hne, hes⟩ := c.component.toValue_entries
  unfold LocalConfig.toValue
  rw [hv]
  refine ⟨_, rfl, by simp, ?_⟩
  exact .scalar (configKeys_plain "version" (by decide)) (.nat _)
    (.map (configKeys_plain "component" (by decide)) hne hes
      (.scalar (configKeys_plain "created_at" (by decide)) (.str _)
        (.scalar (configKeys_plain "updated_at" (by decide)) (.str _) .nil)))

/-! ### Reading the written configuration back -/

theorem decodes_strs (expected : String) (l : List String) :
    Decodes (Decoder.sequence (Decoder.text expected)) ((valueEvents (Value.strs l)).map EventKind.item) l :=
  decodes_sequence_scalars l Value.str (fun t _ => .str t) (fun t _ => decodes_text_str expected t)

theorem decodes_ports {l : List Nat} (hp : ∀ p ∈ l, p ≤ portMax) :
    Decodes (Decoder.sequence (Decoder.unsigned portMax "u16"))
      ((valueEvents (.seq (l.map fun p => Value.int (Int.ofNat p)))).map EventKind.item) l := by
  refine decodes_sequence_scalars l _ (fun p _ => .nat p) fun p hpl => ?_
  show Decodes _ ((valueEvents (.int (p : Int))).map EventKind.item) p
  rw [valueEvents_nat]
  exact decodes_unsigned "u16" (hp p hpl) (le_trans (hp p hpl) (by decide))

theorem SourceType.decodes_name (t : SourceType) :
    Decodes (Decoder.choice ["local", "binary", "git"]) ((valueEvents (.str t.name)).map EventKind.item)
      t.name := by
  obtain ⟨st, h⟩ := valueEvents_str t.name
  rw [h]
  exact decodes_choice (by cases t <;> decide)

theorem readMomentYaml_decodes {m : Time.Instant} (hm : m.WellFormed) :
    Decodes readMomentYaml ((valueEvents (.str (m.rfc3339 true))).map EventKind.item) m := by
  obtain ⟨st, h⟩ := valueEvents_str (m.rfc3339 true)
  rw [h]
  exact decodes_textWith (by simp [Time.Instant.parseRfc3339_rfc3339 hm, Except.mapError])

theorem readCommand_decodes (c : CommandSpec) :
    Decodes readCommand ((valueEvents c.toValue).map EventKind.item) c := by
  unfold readCommand CommandSpec.toValue
  apply decodes_record
  · exact (EntriesRead.field (k := "command") rfl (decodes_text_str _ _) _).append
      (.optional (k := "workdir") (x := c.workdir) rfl (fun b hb => by simp [hb])
        (fun hb => by simp [hb]) (fun b => decodes_optional_str _ b) rfl)
  · split <;> simp
  · rfl

theorem decodes_optional_command (c : CommandSpec) :
    Decodes (Decoder.optional readCommand) ((valueEvents c.toValue).map EventKind.item) (some c) := by
  obtain ⟨es, hc, -, -⟩ := c.toValue_entries
  have hd := readCommand_decodes c
  rw [hc] at hd ⊢
  exact decodes_optional hd rfl (by simp [EventKind.item])

theorem readSettings_decodes (s : ComponentSettings) (hp : ∀ p ∈ s.ports, p ≤ portMax) :
    Decodes readSettings ((valueEvents s.toValue).map EventKind.item) s := by
  unfold readSettings ComponentSettings.toValue
  simp only
  apply decodes_record
  · -- one field of the settings a group, in the order they are written
    repeat' apply EntriesRead.append
    · exact .optional (k := "name") (x := s.name) rfl (fun b hb => by simp [hb])
        (fun hb => by simp [hb]) (fun b => decodes_optional_str _ b) rfl
    · exact .field (k := "application") rfl (decodes_text_str _ _) _
    · exact .optional (k := "project") (x := s.project) rfl (fun b hb => by simp [hb])
        (fun hb => by simp [hb]) (fun b => decodes_optional_str _ b) rfl
    · exact .field (k := "source_type") rfl s.sourceType.decodes_name _
    · exact .optional (k := "source_path") (x := s.sourcePath) rfl (fun b hb => by simp [hb])
        (fun hb => by simp [hb]) (fun b => decodes_optional_str _ b) rfl
    · exact .optional (k := "image") (x := s.image) rfl (fun b hb => by simp [hb])
        (fun hb => by simp [hb]) (fun b => decodes_optional_str _ b) rfl
    · exact (EntriesRead.field (k := "build_container") rfl (decodes_text_str _ _) _).append
        (.field (k := "run_container") rfl (decodes_text_str _ _) _)
    · exact .optional (k := "destination") (x := s.destination) rfl (fun b hb => by simp [hb])
        (fun hb => by simp [hb]) (fun b => decodes_optional_str _ b) rfl
    · exact .list (k := "mirror_roots") (l := s.mirrorRoots) rfl
        (fun h => ⟨by simp [h], decodes_strs _ _⟩) (fun h => by simp [h]) rfl
    · exact .optional (k := "build") (x := s.build) rfl (fun b hb => by simp [hb])
        (fun hb => by simp [hb]) decodes_optional_command rfl
    · exact .optional (k := "run") (x := s.run) rfl (fun b hb => by simp [hb])
        (fun hb => by simp [hb]) decodes_optional_command rfl
    · exact .optional (k := "reload") (x := s.reload) rfl (fun b hb => by simp [hb])
        (fun hb => by simp [hb]) decodes_optional_command rfl
    · exact .list (k := "ports") (l := s.ports) rfl
        (fun h => ⟨by simp [h], decodes_ports hp⟩) (fun h => by simp [h]) rfl
    · exact .list (k := "ignores") (l := s.ignores) rfl
        (fun h => ⟨by simp [h], decodes_strs _ _⟩) (fun h => by simp [h]) rfl
    · exact .field (k := "storage_size") rfl (decodes_text_str _ _) _
  · -- the keys written are among the settings keys, each in its own place
    refine List.Sublist.nodup ?_ (show settingsKeys.Nodup by decide)
    rw [show settingsKeys = ["name"] ++ ["application"] ++ ["project"] ++ ["source_type"] ++
      ["source_path"] ++ ["image"] ++ ["build_container", "run_container"] ++ ["destination"] ++
      ["mirror_roots"] ++ ["build"] ++ ["run"] ++ ["reload"] ++ ["ports"] ++ ["ignores"] ++
      ["storage_size"] from rfl]
    simp only [List.map_append]
    repeat' apply List.Sublist.append
    all_goals (try split) <;> simp
  · obtain ⟨_, _, _, _ | _ | _, _⟩ := s <;> rfl

/-- A written configuration is read back as itself, as long as its version and ports are in
range and both of its moments are well formed. -/
theorem readLocalConfig_decodes (c : LocalConfig) (hv : c.version ≤ versionMax)
    (hp : ∀ p ∈ c.component.ports, p ≤ portMax) (hc : c.createdAt.WellFormed)
    (hu : c.updatedAt.WellFormed) :
    Decodes readLocalConfig ((valueEvents c.toValue).map EventKind.item) c := by
  unfold readLocalConfig LocalConfig.toValue
  apply decodes_record
  · have hversion : Decodes (Decoder.unsigned versionMax "u32")
        ((valueEvents (.int c.version)).map EventKind.item) c.version := by
      rw [valueEvents_nat]
      exact decodes_unsigned "u32" hv (le_trans hv (by decide))
    exact (EntriesRead.field (k := "version") rfl hversion _).append
      ((EntriesRead.field (k := "component") rfl (readSettings_decodes _ hp) _).append
        ((EntriesRead.field (k := "created_at") rfl (readMomentYaml_decodes hc) _).append
          (EntriesRead.field (k := "updated_at") rfl (readMomentYaml_decodes hu) _)))
  · simp
  · rfl

theorem LocalConfig.ofYaml_toYaml (c : LocalConfig) (hv : c.version ≤ versionMax)
    (hp : ∀ p ∈ c.component.ports, p ≤ portMax) (hc : c.createdAt.WellFormed)
    (hu : c.updatedAt.WellFormed) : LocalConfig.ofYaml c.toYaml = .ok c := by
  obtain ⟨es, hes, hne, hentries⟩ := c.toValue_entries
  have hd := readLocalConfig_decodes c hv hp hc hu
  rw [hes] at hd
  rw [LocalConfig.ofYaml, LocalConfig.toYaml, hes, runOn_mapping hentries hne hd]
  rfl

end ComponentSync

/-! ### What any text is read as -/

namespace ComponentSync.Yaml

/-- Whatever the decoder `dec` reads, from any document at any place, satisfies `P`. -/
def Decoder.Gives {α : Type} (dec : Decoder α) (P : α → Prop) : Prop :=
  ∀ d path pos a next, dec d path pos = .ok (a, next) → P a

namespace Decoder.Gives

variable {α : Type} {P : α → Prop}

theorem trivial {dec : Decoder α} : dec.Gives fun _ => True := fun _ _ _ _ _ _ => True.intro

theorem node {read : NodeReader α}
    (h : ∀ item mark d path next a n, read item mark d path next = .ok (a, n) → P a) :
    (node read).Gives P := by
  intro d path pos a next hr
  unfold ComponentSync.Yaml.node at hr
  rcases hp : d.peek pos with e | ⟨item, mark⟩
  · simp [hp, bind, Except.bind] at hr
  simp only [hp, bind, Except.bind] at hr
  split at hr
  · -- an alias is read at its target
    split at hr
    · cases hr
    · split at hr
      · cases hr
      · next hrd =>
        simp only [pure, Except.pure, Except.ok.injEq, Prod.mk.injEq] at hr
        exact hr.1 ▸ h _ _ _ _ _ _ _ hrd
  · exact h _ _ _ _ _ _ _ hr

theorem unsigned (max : Nat) (name : String) : (Decoder.unsigned max name).Gives (· ≤ max) :=
  node fun item mark d path next a n h => by
    simp only at h
    split at h
    · split at h
      · cases h
      · split at h
        · split at h
          · cases h
            assumption
          · cases h
        · cases h
    · cases h

theorem textWith {expected : String} {convert : String → Except String α}
    (hc : ∀ t a, convert t = .ok a → P a) : (Decoder.textWith expected convert).Gives P :=
  node fun item mark d path next a n h => by
    split at h
    · split at h
      · cases h
        exact hc _ _ ‹_›
      · cases h
    · cases h

theorem readElementsFrom {elem : Decoder α} (he : elem.Gives P) (d : Document) (path : Path) :
    ∀ fuel (acc : Array α) pos r next, (∀ x ∈ acc, P x) →
      ComponentSync.Yaml.readElementsFrom elem d path fuel acc pos = .ok (r, next) → ∀ x ∈ r, P x
  | 0, acc, pos, r, next, hacc, h => by
    simp only [ComponentSync.Yaml.readElementsFrom, pure, Except.pure, Except.ok.injEq,
      Prod.mk.injEq] at h
    exact h.1 ▸ hacc
  | fuel + 1, acc, pos, r, next, hacc, h => by
    simp only [ComponentSync.Yaml.readElementsFrom, bind, Except.bind] at h
    rcases hp : d.peek pos with e | ⟨item, mark⟩
    · simp [hp] at h
    simp only [hp] at h
    split at h
    · simp only [pure, Except.pure, Except.ok.injEq, Prod.mk.injEq] at h
      exact h.1 ▸ hacc
    · simp only [pure, Except.pure, Except.ok.injEq, Prod.mk.injEq] at h
      exact h.1 ▸ hacc
    · rcases hx : elem d (.index path acc.size) pos with e | ⟨x, n⟩
      · simp [hx] at h
      simp only [hx] at h
      refine readElementsFrom he d path fuel (acc.push x) n r next (fun y hy => ?_) h
      rcases Array.mem_push.mp hy with hy | rfl
      · exact hacc y hy
      · exact he _ _ _ _ _ hx

theorem sequence {elem : Decoder α} (he : elem.Gives P) :
    (Decoder.sequence elem).Gives (∀ x ∈ ·, P x) :=
  node fun item mark d path next a n h => by
    split at h
    · rcases hr : ComponentSync.Yaml.readElementsFrom elem d path (d.items.size + 1) #[] next with
        e | ⟨acc, pos⟩
      · simp [readElements, hr, bind, Except.bind, Except.mapError] at h
      · have hacc := readElementsFrom he d path _ #[] next acc pos (by simp) hr
        simp only [readElements, hr, bind, Except.bind, Except.mapError] at h
        rcases hq : d.peek pos with e | q
        · simp [hq] at h
        · simp only [hq, pure, Except.pure, Except.ok.injEq, Prod.mk.injEq] at h
          intro x hx
          rw [← h.1] at hx
          exact hacc x (by simpa using hx)
    · split at h
      · cases h
        simp
      · cases h

end Decoder.Gives

/-- Reading the field `f` keeps `Inv` of the record it stores into. -/
def RecordField.Keeps {σ : Type} (f : RecordField σ) (Inv : σ → Prop) : Prop :=
  ∀ d path pos store next, f.read d path pos = .ok (store, next) → ∀ r, Inv r → Inv (store r)

theorem RecordField.keeps_of {σ β : Type} {Inv : σ → Prop} {Q : β → Prop} {name : String}
    {dec : Decoder β} {store : β → σ → σ} (hd : dec.Gives Q) (hs : ∀ b r, Q b → Inv r → Inv (store b r)) :
    (RecordField.of name dec store).Keeps Inv := by
  intro d path pos st next h r hr
  simp only [RecordField.of] at h
  rcases hb : dec d path pos with e | ⟨b, n⟩
  · simp [hb, Except.map] at h
  · simp only [hb, Except.map, Except.ok.injEq, Prod.mk.injEq] at h
    rw [← h.1]
    exact hs b r (hd _ _ _ _ _ hb) hr

section Record

variable {σ α : Type} {Inv : σ → Prop} {fields : List (RecordField σ)}

theorem readEntriesFrom_keeps (hf : ∀ f ∈ fields, f.Keeps Inv) (d : Document) (path : Path) :
    ∀ fuel record seen pos r seen' pos', Inv record →
      readEntriesFrom fields d path fuel record seen pos = .ok (r, seen', pos') → Inv r
  | 0, record, seen, pos, r, seen', pos', hi, h => by
    simp only [readEntriesFrom, pure, Except.pure, Except.ok.injEq, Prod.mk.injEq] at h
    exact h.1 ▸ hi
  | fuel + 1, record, seen, pos, r, seen', pos', hi, h => by
    simp only [readEntriesFrom, bind, Except.bind] at h
    rcases hp : d.peek pos with e | ⟨item, mark⟩
    · simp [hp] at h
    simp only [hp] at h
    split at h
    · simp only [pure, Except.pure, Except.ok.injEq, Prod.mk.injEq] at h
      exact h.1 ▸ hi
    · simp only [pure, Except.pure, Except.ok.injEq, Prod.mk.injEq] at h
      exact h.1 ▸ hi
    · rcases ht : Decoder.text "field identifier" d path pos with e | ⟨name, afterKey⟩
      · simp [ht] at h
      simp only [ht] at h
      split at h
      · next f hfind =>
        split at h
        · cases h
        · split at h
          · cases h
          · next hr =>
            exact readEntriesFrom_keeps hf d path fuel _ _ _ r seen' pos'
              (hf f (List.mem_of_find?_eq_some hfind) _ _ _ _ _ hr _ hi) h
      · -- an entry that names no field is skipped
        split at h
        · cases h
        · exact readEntriesFrom_keeps hf d path fuel _ _ _ r seen' pos' hi h

/-- A record satisfies `P` when every field keeps `Inv`, the first record satisfies it, and the
check at the end gives `P` of a record that satisfies `Inv`. -/
theorem Decoder.Gives.record {P : α → Prop} {name : String} {init : σ}
    {finish : σ → List String → Except String α} (hf : ∀ f ∈ fields, f.Keeps Inv) (hi : Inv init)
    (hfin : ∀ r seen a, Inv r → finish r seen = .ok a → P a) :
    (Decoder.record name fields init finish).Gives P :=
  Decoder.Gives.node fun item mark d path next a n h => by
    split at h
    · simp only [readEntries, bind, Except.bind, Except.mapError] at h
      rcases hr : readEntriesFrom fields d path (d.items.size + 1) init [] next with
        e | ⟨r, seen, pos⟩
      · simp [hr] at h
      have hinv := readEntriesFrom_keeps hf d path _ _ _ _ r seen pos hi hr
      simp only [hr] at h
      rcases hfr : finish r seen with e | b
      · simp [hfr] at h
      rcases hq : d.peek pos with e | q
      · simp [hfr, hq] at h
      simp only [hfr, hq, pure, Except.pure, Except.ok.injEq, Prod.mk.injEq] at h
      exact h.1 ▸ hfin r seen b hinv hfr
    · split at h
      · rcases hfr : finish init [] with e | b
        · simp [hfr, Except.mapError, Except.map] at h
        · simp only [hfr, Except.mapError, Except.map, Except.ok.injEq, Prod.mk.injEq] at h
          exact h.1 ▸ hfin init [] b hi hfr
      · cases h

end Record

end ComponentSync.Yaml

namespace ComponentSync

open Yaml

/-- What every configuration read from a text satisfies: its version and ports are within their
bounds, and both of its moments are calendar moments. -/
structure LocalConfig.InRange (c : LocalConfig) : Prop where
  version : c.version ≤ versionMax
  ports : ∀ p ∈ c.component.ports, p ≤ portMax
  createdAt : c.createdAt.WellFormed
  updatedAt : c.updatedAt.WellFormed

theorem readMomentYaml_gives : readMomentYaml.Gives Time.Instant.WellFormed :=
  Decoder.Gives.textWith fun t m h => by
    cases hp : Time.Instant.parseRfc3339 t with
    | error e => simp [hp, Except.mapError] at h
    | ok m' =>
      simp only [hp, Except.mapError, Except.ok.injEq] at h
      exact h ▸ Time.Instant.parseRfc3339_wellFormed hp

theorem readSettings_gives : readSettings.Gives fun s => ∀ p ∈ s.ports, p ≤ portMax := by
  have hkeep : ∀ f ∈ settingsFields,
      f.Keeps (fun s : ComponentSettings => ∀ p ∈ s.ports, p ≤ portMax) := by
    simp only [settingsFields, List.mem_cons, List.not_mem_nil, or_false]
    rintro f (rfl | rfl | rfl | rfl | rfl | rfl | rfl | rfl | rfl | rfl | rfl | rfl | rfl | rfl |
      rfl | rfl)
    all_goals first
      | exact RecordField.keeps_of (Decoder.Gives.sequence (Decoder.Gives.unsigned portMax "u16"))
          fun _ _ hb _ => hb
      | exact RecordField.keeps_of Decoder.Gives.trivial fun _ _ _ hr => hr
  exact Decoder.Gives.record hkeep (by simp [ComponentSettings.default]) fun r _ a hr h => by
    cases h
    exact hr

theorem readLocalConfig_gives : readLocalConfig.Gives LocalConfig.InRange := by
  have hkeep : ∀ f ∈ [RecordField.of "version" (Decoder.unsigned versionMax "u32") fun v (c : ConfigDraft) =>
       { c with version := some v },
     RecordField.of "component" readSettings fun v c => { c with component := v },
     RecordField.of "created_at" readMomentYaml fun v c => { c with createdAt := some v },
     RecordField.of "updated_at" readMomentYaml fun v c => { c with updatedAt := some v }],
      f.Keeps (fun c : ConfigDraft => (∀ v, c.version = some v → v ≤ versionMax) ∧
        (∀ p ∈ c.component.ports, p ≤ portMax) ∧ (∀ t, c.createdAt = some t → t.WellFormed) ∧
        (∀ t, c.updatedAt = some t → t.WellFormed)) := by
    simp only [List.mem_cons, List.not_mem_nil, or_false]
    rintro f (rfl | rfl | rfl | rfl)
    · exact RecordField.keeps_of (Decoder.Gives.unsigned versionMax "u32") fun b r hb hr =>
        ⟨fun v hv => by cases hv; exact hb, hr.2⟩
    · exact RecordField.keeps_of readSettings_gives fun b r hb hr => ⟨hr.1, hb, hr.2.2⟩
    · exact RecordField.keeps_of readMomentYaml_gives fun b r hb hr =>
        ⟨hr.1, hr.2.1, fun t ht => by cases ht; exact hb, hr.2.2.2⟩
    · exact RecordField.keeps_of readMomentYaml_gives fun b r hb hr =>
        ⟨hr.1, hr.2.1, hr.2.2.1, fun t ht => by cases ht; exact hb⟩
  refine Decoder.Gives.record hkeep ⟨by simp, by simp [ComponentSettings.default], by simp, by simp⟩
    fun r _ a hr h => ?_
  split at h
  · next v made changed hv hm hc =>
    cases h
    exact ⟨hr.1 v hv, hr.2.1, hr.2.2.1 made hm, hr.2.2.2 changed hc⟩
  all_goals cases h

theorem LocalConfig.ofYaml_inRange {t : String} {c : LocalConfig} (h : LocalConfig.ofYaml t = .ok c) :
    c.InRange := by
  unfold LocalConfig.ofYaml Decoder.runOn at h
  simp only at h
  split at h
  · simp [Except.mapError] at h
  · next a next hd =>
    have hc := readLocalConfig_gives _ _ _ _ _ hd
    split at h
    · simp [Except.mapError] at h
    split at h
    · simp [Except.mapError] at h
    simp only [Except.mapError, Except.ok.injEq] at h
    exact h ▸ hc

end ComponentSync
