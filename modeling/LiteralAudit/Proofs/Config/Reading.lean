import LiteralAudit.Proofs.Config.Schema
import LiteralAudit.Proofs.Ends
import LiteralAudit.Proofs.Toml.Orderly

/-!
# Reading a configuration file

A document is read exactly if it does not misfit (`ofEntries_succeeds`), and then the result is
what it gives (`gives_ofEntries`).  Sections are tables or arrays.

The readers of single values come first.  A section is read by setting one value after the other,
so what it has in the end is told by what one value sets and what it keeps (`sets_foldlM`).  As no
name comes twice, the value that was set last is the one that is found by its name.
-/

namespace LiteralAudit

open Toml ConfigFile

namespace ConfigReading

/-! ## Values of settings -/

@[simp]
theorem fail_ne_ok {α : Type} (node : Node) (message : Text) (value : α) :
    fail node message ≠ .ok value := nofun

@[simp]
theorem wrongKind_ne_ok {α : Type} (expected : Text) (node : Node) (value : α) :
    wrongKind expected node ≠ .ok value := by
  rw [wrongKind]
  split <;> simp

theorem readBool_eq_ok {node : Node} {flag : Bool} :
    readBool node = .ok flag ↔ node.IsFlag flag := by
  unfold readBool
  split
  · simp [Node.IsFlag]
  · next hother =>
      simp only [wrongKind_ne_ok, Node.IsFlag, false_iff]
      rintro ⟨span, rfl⟩
      exact hother flag span rfl

theorem readText_eq_ok {node : Node} {text : Text} :
    readText node = .ok text ↔ node.IsText text := by
  unfold readText
  split
  · simp [Node.IsText]
  · next hother =>
      simp only [wrongKind_ne_ok, Node.IsText, false_iff]
      rintro ⟨span, rfl⟩
      exact hother text span rfl

theorem readTexts_eq_ok {node : Node} {texts : List Text} :
    readTexts node = .ok texts ↔ node.IsTexts texts := by
  cases node with
  | scalar => simp [readTexts, Node.IsTexts, Node.items?]
  | table => simp [readTexts, Node.IsTexts, Node.items?]
  | array items => simp [readTexts, Node.IsTexts, Node.items?, mapM_eq_ok, readText_eq_ok]
  | tables items => simp [readTexts, Node.IsTexts, Node.items?, mapM_eq_ok, readText_eq_ok]

theorem readPath_eq_ok {node : Node} {path : Path} :
    readPath node = .ok path ↔ node.IsPath path := by
  unfold readPath
  split
  · simp [Node.IsPath, Node.IsText, eq_comm]
  · next hother =>
      simp only [wrongKind_ne_ok, Node.IsPath, Node.IsText, false_iff]
      rintro ⟨text, ⟨span, rfl⟩, -⟩
      exact hother text span rfl

/-- Only whole numbers that are not negative and fit in 64 bits are counts. -/
theorem readNatural_eq_ok {node : Node} {count : Nat} :
    readNatural node = .ok count ↔ node.IsCount count := by
  unfold readNatural
  split
  · next value span =>
      have hpow : Int.pow 2 64 = 2 ^ 64 := rfl
      simp only [Node.IsCount, Node.scalar.injEq, Scalar.whole.injEq, hpow]
      split
      · simp at *
        omega
      · split
        · simp at *
          omega
        · simp at *
          omega
  · next hother =>
      simp only [wrongKind_ne_ok, Node.IsCount, false_iff]
      rintro ⟨span, rfl, -⟩
      exact hother count span rfl

theorem readModeName_eq_ok {span : Span} {name : Text} {mode : Theme} :
    readModeName span name = .ok mode ↔ name = mode.name := by
  have hne : Theme.light.name ≠ Theme.dark.name := by decide
  unfold readModeName
  split
  · next hlight => cases mode <;> simp [hlight, hne]
  · next hlight =>
      split
      · next hdark => cases mode <;> simp [hdark, hne.symm]
      · next hdark => cases mode <;> simp [hlight, hdark]

theorem isMode_single {origin : Origin} {name : Text} {place span : Span} {inner : Node}
    {mode : Theme} : (Node.table origin [(name, place, inner)] span).IsMode mode ↔
      name = mode.name ∧ inner.isHollow = true := by
  constructor
  · intro h
    rcases h with ⟨_, h⟩ | ⟨_, _, _, _, h, hhollow⟩
    · cases h
    · cases h
      exact ⟨rfl, hhollow⟩
  · rintro ⟨rfl, hhollow⟩
    exact .inr ⟨origin, place, inner, span, rfl, hhollow⟩

/-- A mode is read from its name, or from a table with the name as its only key and nothing behind
it. -/
theorem readMode_eq_ok {node : Node} {mode : Theme} :
    readMode node = .ok mode ↔ node.IsMode mode := by
  unfold readMode
  split
  · simp [readModeName_eq_ok, Node.IsMode, Node.IsText]
  · simp [Node.IsMode, Node.IsText]
  · next inner _ =>
      rw [isMode_single, bind_eq_ok]
      simp only [readModeName_eq_ok]
      cases inner with
      | scalar => simp [Node.isHollow]
      | table _ entries => cases entries <;> simp [Node.isHollow]
      | array items => cases items <;> simp [Node.isHollow]
      | tables => simp [Node.isHollow]
  · next hempty hsingle =>
      simp only [fail_ne_ok, false_iff]
      intro h
      rcases h with ⟨_, h⟩ | ⟨_, place, inner, _, h, _⟩
      · cases h
      · cases h
        exact hsingle _ place inner rfl
  · next htext hempty hsingle htable =>
      simp only [fail_ne_ok, false_iff]
      intro h
      rcases h with ⟨span, h⟩ | ⟨origin, place, inner, span, h, _⟩
      · exact htext _ span h
      · exact htable origin _ span h

/-! ## Sections -/

/-- The section with a value set. -/
def Section.setValue {α : Type} (part : Section α) (config : α) (value : Text × Node) :
    Except Fault α :=
  part.set config value.1 value.2

section

variable {α β : Type} {part : Section α} {config result : α}

/-- The values of a table are set one after the other, and none of them has an unknown name. -/
theorem foldlM_setNamed_eq_ok {entries : Entries} :
    entries.foldlM part.setNamed config = .ok result ↔
      (∀ value ∈ entries.values, value.1 ∈ part.names) ∧
        entries.values.foldlM part.setValue config = .ok result := by
  rw [Entries.values]
  induction entries generalizing config with
  | nil => simp
  | cons entry entries ih =>
      rw [List.foldlM_cons, List.map_cons, List.forall_mem_cons, List.foldlM_cons]
      by_cases hknown : entry.1 ∈ part.names
      · have hset : part.setNamed config entry = part.setValue config (entry.1, entry.2.2) := by
          simp [Section.setNamed, Section.setValue, hknown]
        simp only [hset, bind_eq_ok, ih, hknown, true_and]
        constructor
        · rintro ⟨next, hnext, hvalues, hresult⟩
          exact ⟨hvalues, next, hnext, hresult⟩
        · rintro ⟨hvalues, next, hnext, hresult⟩
          exact ⟨next, hnext, hvalues, hresult⟩
      · simp [Section.setNamed, hknown, bind_eq_ok]

/-- A section is read by setting the values of a table or an array. -/
theorem Section.read_eq_ok (hdate : dateTimeField ∉ part.names) {node : Node} :
    part.read config node = .ok result ↔
      ∃ values, Form.tableOrArray part.names node = some values ∧
        (∀ value ∈ values, value.1 ∈ part.names) ∧
        values.foldlM part.setValue config = .ok result := by
  have hitems : ∀ items : List Node,
      (part.names.zip items).foldlM part.setValue config = .ok result ↔
      ∃ values, some (part.names.zip items) = some values ∧
        (∀ value ∈ values, value.1 ∈ part.names) ∧
        values.foldlM part.setValue config = .ok result := by
    intro items
    have hzip : ∀ value ∈ part.names.zip items, value.1 ∈ part.names :=
      fun value hvalue => (List.of_mem_zip hvalue).1
    simp only [Option.some.injEq, exists_eq_left', iff_and_self]
    exact fun _ => hzip
  cases node with
  | table origin entries span =>
      have hvalues : Form.tableOrArray part.names (.table origin entries span) =
          some (Entries.values entries) := rfl
      rw [Section.read, foldlM_setNamed_eq_ok, hvalues]
      simp only [Option.some.injEq, exists_eq_left']
  | array items span => exact hitems items
  | tables items span => exact hitems items.reverse
  | scalar value span =>
      cases value with
      | dateTime =>
          -- a date is read as a table with one key, and no section has this key
          simp [Section.read, Section.setNamed, hdate, Form.tableOrArray, Form.table, Node.items?]
      | _ => simp [Section.read, Form.tableOrArray, Form.table, Node.items?]

/-- What a value sets if it has a name, and what values with other names keep. -/
def Section.Tells (part : Section α) (name : Text) (get : α → β) (Is : Node → β → Prop) : Prop :=
  ∀ (config next : α) (other : Text) (node : Node), other ∈ part.names →
    part.set config other node = .ok next →
    if other = name then Is node (get next) else get next = get config

/-- If no name occurs twice, a setting ends up as the value with its name says, wherever that
stands. -/
theorem sets_foldlM {name : Text} {get : α → β} {Is : Node → β → Prop}
    (htells : part.Tells name get Is) {values : List (Text × Node)}
    (hknown : ∀ value ∈ values, value.1 ∈ part.names) (hnodup : (values.map Prod.fst).Nodup)
    (hvalues : values.foldlM part.setValue config = .ok result) :
    Sets (valueOf? name values) Is (get config) (get result) := by
  -- the value with the name is set once, and what is set later has another name
  induction values generalizing config with
  | nil =>
      obtain rfl := Except.ok.inj hvalues
      exact rfl
  | cons value values ih =>
      rw [List.forall_mem_cons] at hknown
      rw [List.map_cons, List.nodup_cons] at hnodup
      rw [List.foldlM_cons, bind_eq_ok] at hvalues
      obtain ⟨next, hnext, hrest⟩ := hvalues
      have hlater := ih hknown.2 hnodup.2 hrest
      have htold := htells _ _ _ _ hknown.1 hnext
      by_cases hname : value.1 = name
      · have hnone : valueOf? name values = none := by
          rw [valueOf?, Option.map_eq_none_iff, List.find?_eq_none]
          intro other hother hsame
          rw [hname, ← of_decide_eq_true hsame] at hnodup
          exact hnodup.1 (List.mem_map_of_mem hother)
        have hfound : valueOf? name (value :: values) = some value.2 := by
          simp [valueOf?, hname]
        rw [if_pos hname] at htold
        rw [hnone] at hlater
        rw [hfound]
        exact hlater ▸ htold
      · have hfound : valueOf? name (value :: values) = valueOf? name values := by
          simp [valueOf?, hname]
        rw [if_neg hname] at htold
        rw [hfound, ← htold]
        exact hlater

theorem nodup_values {entries : Entries} (h : entries.Orderly) :
    (entries.values.map Prod.fst).Nodup := by
  rw [Entries.values, List.map_map, List.Nodup, List.pairwise_map]
  exact h.ascending.imp Json.ne_of_nameBefore

theorem nodup_zip {names : List Text} (hnames : names.Nodup) (items : List Node) :
    ((names.zip items).map Prod.fst).Nodup := by
  induction names generalizing items with
  | nil => simp
  | cons name names ih =>
      rw [List.nodup_cons] at hnames
      cases items with
      | nil => simp
      | cons item items =>
          rw [List.zip_cons_cons, List.map_cons, List.nodup_cons]
          refine ⟨fun hmem => ?_, ih hnames.2 items⟩
          obtain ⟨value, hvalue, rfl⟩ := List.mem_map.mp hmem
          exact hnames.1 (List.of_mem_zip hvalue).1

theorem nodup_tableOrArray {names : List Text} (hnames : names.Nodup) {node : Node}
    (hnode : node.Orderly) {values : List (Text × Node)}
    (hvalues : Form.tableOrArray names node = some values) : (values.map Prod.fst).Nodup := by
  cases node with
  | scalar => cases hvalues
  | table origin entries span =>
      cases hvalues
      exact nodup_values (Entries.orderly_of_table hnode)
  | array items span =>
      cases hvalues
      exact nodup_zip hnames items
  | tables items span =>
      cases hvalues
      exact nodup_zip hnames items.reverse

/-- A setting of a section is as the section says. -/
theorem Section.Tells.sets_read {name : Text} {get : α → β} {Is : Node → β → Prop}
    (htells : part.Tells name get Is) (hdate : dateTimeField ∉ part.names)
    (hnames : part.names.Nodup) {node : Node} (hnode : node.Orderly)
    (hread : part.read config node = .ok result) :
    Sets (Form.tableOrArray part.names node >>= valueOf? name) Is (get config) (get result) := by
  obtain ⟨values, hvalues, hknown, hset⟩ := (Section.read_eq_ok hdate).mp hread
  rw [hvalues]
  exact sets_foldlM htells hknown (nodup_tableOrArray hnames hnode hvalues) hset

/-- A value has a known name, and it is of the kind that goes with it. -/
def Admits {κ : Type} (Fits : κ → Node → Prop) (known : List (Text × κ)) (value : Text × Node) :
    Prop :=
  value.1 ∈ known.map Prod.fst ∧ ∀ kind, (value.1, kind) ∈ known → Fits kind value.2

/-- The values of a section can be set if it admits them all. -/
theorem setValues_succeeds {κ : Type} {Fits : κ → Node → Prop} {known : List (Text × κ)}
    (hnames : part.names = known.map Prod.fst)
    (hfits : ∀ name kind, (name, kind) ∈ known → ∀ config node,
      (∃ next, part.set config name node = .ok next) ↔ Fits kind node)
    {values : List (Text × Node)} :
    ((∀ value ∈ values, value.1 ∈ part.names) ∧
      ∃ result, values.foldlM part.setValue config = .ok result) ↔
        ∀ value ∈ values, Admits Fits known value := by
  rw [hnames]
  have hset (hknown : ∀ value ∈ values, value.1 ∈ known.map Prod.fst) :
      (∃ result, values.foldlM part.setValue config = .ok result) ↔
        ∀ value ∈ values, ∀ kind, (value.1, kind) ∈ known → Fits kind value.2 := by
    refine foldlM_succeeds (fun value hvalue start => ?_) config
    obtain ⟨⟨name, kind⟩, hkind, hname⟩ := List.mem_map.mp (hknown value hvalue)
    cases hname
    constructor
    · intro hnext other hother
      exact (hfits _ other hother start _).mp hnext
    · intro hall
      exact (hfits _ kind hkind start _).mpr (hall kind hkind)
  constructor
  · rintro ⟨hknown, hresult⟩ value hvalue
    exact ⟨hknown value hvalue, (hset hknown).mp hresult value hvalue⟩
  · intro hall
    have hknown := fun value hvalue => (hall value hvalue).1
    exact ⟨hknown, (hset hknown).mpr fun value hvalue => (hall value hvalue).2⟩

/-- A value can be a section: it has the form of one, and the section admits its values. -/
def SectionFits (form : Form) (settings : List (Text × Kind)) (node : Node) : Prop :=
  ∃ values, form (settings.map Prod.fst) node = some values ∧
    ∀ value ∈ values, Admits Kind.Fits settings value

/-- A section can be read exactly if its value has the form of one and all that is in it fits. -/
theorem Section.read_succeeds {settings : List (Text × Kind)}
    (hnames : part.names = settings.map Prod.fst) (hdate : dateTimeField ∉ part.names)
    (hfits : ∀ name kind, (name, kind) ∈ settings → ∀ config node,
      (∃ next, part.set config name node = .ok next) ↔ kind.Fits node) {node : Node} :
    (∃ result, part.read config node = .ok result) ↔
      SectionFits .tableOrArray settings node := by
  simp only [Section.read_eq_ok hdate, SectionFits, ← hnames]
  constructor
  · rintro ⟨result, values, hvalues, hknown, hresult⟩
    exact ⟨values, hvalues, (setValues_succeeds hnames hfits).mp ⟨hknown, result, hresult⟩⟩
  · rintro ⟨values, hvalues, hall⟩
    obtain ⟨hknown, result, hresult⟩ := (setValues_succeeds hnames hfits).mpr hall
    exact ⟨result, values, hvalues, hknown, hresult⟩

end

/-! ## The settings of the walk -/

/-- A value can be set if it can be read. -/
theorem succeeds_map {α γ : Type} {read : Node → Except Fault γ} {Is : Node → γ → Prop}
    (hread : ∀ {node : Node} {value : γ}, read node = .ok value ↔ Is node value) (put : γ → α)
    (node : Node) : (∃ next, (read node).map put = .ok next) ↔ ∃ value, Is node value := by
  simp only [map_eq_ok, hread]
  constructor
  · rintro ⟨_, value, hvalue, _⟩
    exact ⟨value, hvalue⟩
  · rintro ⟨value, hvalue⟩
    exact ⟨put value, value, hvalue, rfl⟩

theorem scanSection_names : scanSection.names = scannerSettings.map Prod.fst := rfl

theorem scanSection_fits : ∀ name kind, (name, kind) ∈ scannerSettings → ∀ config node,
    (∃ next, scanSection.set config name node = .ok next) ↔ kind.Fits node := by
  intro name kind hkind config node
  simp only [scannerSettings, List.mem_cons, Prod.mk.injEq, List.not_mem_nil, or_false] at hkind
  rcases hkind with ⟨rfl, rfl⟩ | ⟨rfl, rfl⟩ | ⟨rfl, rfl⟩
  · exact succeeds_map readTexts_eq_ok _ node
  · exact succeeds_map readTexts_eq_ok _ node
  · exact succeeds_map readBool_eq_ok _ node

/-- Each setting of the scanner sets its own field and no other. -/
theorem scanSection_cases {config next : ScanConfig} {name : Text} {node : Node}
    (hname : name ∈ scanSection.names) (hset : scanSection.set config name node = .ok next) :
    (∃ texts, name = "exclude_dirs" ∧ node.IsTexts texts ∧
        { config with excludeDirs := texts } = next) ∨
      (∃ texts, name = "exclude" ∧ node.IsTexts texts ∧ { config with exclude := texts } = next) ∨
      ∃ flag, name = "gitignore" ∧ node.IsFlag flag ∧ { config with gitignore := flag } = next := by
  rw [scanSection_names] at hname
  simp only [scannerSettings, List.map_cons, List.map_nil, List.mem_cons, List.not_mem_nil,
    or_false] at hname
  rcases hname with rfl | rfl | rfl
  · change (readTexts node).map _ = _ at hset
    obtain ⟨texts, htexts, hnext⟩ := map_eq_ok.mp hset
    exact .inl ⟨texts, rfl, readTexts_eq_ok.mp htexts, hnext⟩
  · change (readTexts node).map _ = _ at hset
    obtain ⟨texts, htexts, hnext⟩ := map_eq_ok.mp hset
    exact .inr (.inl ⟨texts, rfl, readTexts_eq_ok.mp htexts, hnext⟩)
  · change (readBool node).map _ = _ at hset
    obtain ⟨flag, hflag, hnext⟩ := map_eq_ok.mp hset
    exact .inr (.inr ⟨flag, rfl, readBool_eq_ok.mp hflag, hnext⟩)

theorem tells_excludeDirs :
    scanSection.Tells "exclude_dirs" ScanConfig.excludeDirs Node.IsTexts := by
  intro config next other node hknown hset
  rcases scanSection_cases hknown hset with
    ⟨texts, rfl, htexts, rfl⟩ | ⟨texts, rfl, htexts, rfl⟩ | ⟨flag, rfl, hflag, rfl⟩
  · exact htexts
  · exact rfl
  · exact rfl

theorem tells_exclude : scanSection.Tells "exclude" ScanConfig.exclude Node.IsTexts := by
  intro config next other node hknown hset
  rcases scanSection_cases hknown hset with
    ⟨texts, rfl, htexts, rfl⟩ | ⟨texts, rfl, htexts, rfl⟩ | ⟨flag, rfl, hflag, rfl⟩
  · exact rfl
  · exact htexts
  · exact rfl

theorem tells_gitignore : scanSection.Tells "gitignore" ScanConfig.gitignore Node.IsFlag := by
  intro config next other node hknown hset
  rcases scanSection_cases hknown hset with
    ⟨texts, rfl, htexts, rfl⟩ | ⟨texts, rfl, htexts, rfl⟩ | ⟨flag, rfl, hflag, rfl⟩
  · exact rfl
  · exact rfl
  · exact hflag

/-! ## The settings of the audit -/

theorem auditSection_names : auditSection.names = auditSettings.map Prod.fst := rfl

/-- A setting of the audit can be set exactly if its value is of its kind. -/
theorem auditSection_fits : ∀ name kind, (name, kind) ∈ auditSettings → ∀ config node,
    (∃ next, auditSection.set config name node = .ok next) ↔ kind.Fits node := by
  intro name kind hkind config node
  simp only [auditSettings, List.mem_cons, Prod.mk.injEq, List.not_mem_nil, or_false] at hkind
  rcases hkind with ⟨rfl, rfl⟩ | ⟨rfl, rfl⟩ | ⟨rfl, rfl⟩ | ⟨rfl, rfl⟩
  · exact succeeds_map readTexts_eq_ok _ node
  · exact succeeds_map readPath_eq_ok _ node
  · exact succeeds_map readMode_eq_ok _ node
  · exact succeeds_map readNatural_eq_ok _ node

theorem auditSection_cases {config next : AuditConfig} {name : Text} {node : Node}
    (hname : name ∈ auditSection.names) (hset : auditSection.set config name node = .ok next) :
    (∃ texts, name = "extensions" ∧ node.IsTexts texts ∧
        { config with extensions := texts } = next) ∨
      (∃ path, name = "tokens" ∧ node.IsPath path ∧ { config with tokens := some path } = next) ∨
      (∃ mode, name = "mode" ∧ node.IsMode mode ∧ { config with mode := some mode } = next) ∨
      ∃ count, name = "max_listed" ∧ node.IsCount count ∧
        { config with maxListed := count } = next := by
  rw [auditSection_names] at hname
  simp only [auditSettings, List.map_cons, List.map_nil, List.mem_cons, List.not_mem_nil,
    or_false] at hname
  rcases hname with rfl | rfl | rfl | rfl
  · change (readTexts node).map _ = _ at hset
    obtain ⟨texts, htexts, hnext⟩ := map_eq_ok.mp hset
    exact .inl ⟨texts, rfl, readTexts_eq_ok.mp htexts, hnext⟩
  · change (readPath node).map _ = _ at hset
    obtain ⟨path, hpath, hnext⟩ := map_eq_ok.mp hset
    exact .inr (.inl ⟨path, rfl, readPath_eq_ok.mp hpath, hnext⟩)
  · change (readMode node).map _ = _ at hset
    obtain ⟨mode, hmode, hnext⟩ := map_eq_ok.mp hset
    exact .inr (.inr (.inl ⟨mode, rfl, readMode_eq_ok.mp hmode, hnext⟩))
  · change (readNatural node).map _ = _ at hset
    obtain ⟨count, hcount, hnext⟩ := map_eq_ok.mp hset
    exact .inr (.inr (.inr ⟨count, rfl, readNatural_eq_ok.mp hcount, hnext⟩))

theorem tells_extensions :
    auditSection.Tells "extensions" AuditConfig.extensions Node.IsTexts := by
  intro config next other node hknown hset
  rcases auditSection_cases hknown hset with ⟨texts, rfl, htexts, rfl⟩ | ⟨path, rfl, hpath, rfl⟩ |
    ⟨mode, rfl, hmode, rfl⟩ | ⟨count, rfl, hcount, rfl⟩
  · exact htexts
  · exact rfl
  · exact rfl
  · exact rfl

theorem tells_tokens :
    auditSection.Tells "tokens" AuditConfig.tokens (Present Node.IsPath) := by
  intro config next other node hknown hset
  rcases auditSection_cases hknown hset with ⟨texts, rfl, htexts, rfl⟩ | ⟨path, rfl, hpath, rfl⟩ |
    ⟨mode, rfl, hmode, rfl⟩ | ⟨count, rfl, hcount, rfl⟩
  · exact rfl
  · exact ⟨path, rfl, hpath⟩
  · exact rfl
  · exact rfl

theorem tells_mode : auditSection.Tells "mode" AuditConfig.mode (Present Node.IsMode) := by
  intro config next other node hknown hset
  rcases auditSection_cases hknown hset with ⟨texts, rfl, htexts, rfl⟩ | ⟨path, rfl, hpath, rfl⟩ |
    ⟨mode, rfl, hmode, rfl⟩ | ⟨count, rfl, hcount, rfl⟩
  · exact rfl
  · exact rfl
  · exact ⟨mode, rfl, hmode⟩
  · exact rfl

theorem tells_maxListed :
    auditSection.Tells "max_listed" AuditConfig.maxListed Node.IsCount := by
  intro config next other node hknown hset
  rcases auditSection_cases hknown hset with ⟨texts, rfl, htexts, rfl⟩ | ⟨path, rfl, hpath, rfl⟩ |
    ⟨mode, rfl, hmode, rfl⟩ | ⟨count, rfl, hcount, rfl⟩
  · exact rfl
  · exact rfl
  · exact rfl
  · exact hcount

/-! ## The settings of the YAML check -/

theorem yamlSection_names : yamlSection.names = yamlSettings.map Prod.fst := rfl

theorem yamlSection_fits : ∀ name kind, (name, kind) ∈ yamlSettings → ∀ config node,
    (∃ next, yamlSection.set config name node = .ok next) ↔ kind.Fits node := by
  intro name kind hkind config node
  simp only [yamlSettings, List.mem_cons, Prod.mk.injEq, List.not_mem_nil, or_false] at hkind
  obtain ⟨rfl, rfl⟩ := hkind
  exact succeeds_map readTexts_eq_ok _ node

theorem tells_yamlExtensions :
    yamlSection.Tells "extensions" YamlConfig.extensions Node.IsTexts := by
  intro config next other node hknown hset
  rw [yamlSection_names] at hknown
  simp only [yamlSettings, List.map_cons, List.map_nil, List.mem_cons, List.not_mem_nil,
    or_false] at hknown
  change (readTexts node).map _ = _ at hset
  obtain ⟨texts, htexts, rfl⟩ := map_eq_ok.mp hset
  rw [if_pos hknown]
  exact readTexts_eq_ok.mp htexts

/-! ## Documents -/

theorem wholeSection_names : wholeSection.names = schema.map Prod.fst := rfl

/-- A section of the file can be set exactly if it fits. -/
theorem wholeSection_fits : ∀ name settings, (name, settings) ∈ schema → ∀ config node,
    (∃ next, wholeSection.set config name node = .ok next) ↔
      SectionFits .tableOrArray settings node := by
  intro name settings hsettings config node
  simp only [schema, List.mem_cons, Prod.mk.injEq, List.not_mem_nil, or_false] at hsettings
  rcases hsettings with ⟨rfl, rfl⟩ | ⟨rfl, rfl⟩ | ⟨rfl, rfl⟩
  · rw [← Section.read_succeeds scanSection_names (by decide) scanSection_fits]
    exact succeeds_map Iff.rfl _ node
  · rw [← Section.read_succeeds auditSection_names (by decide) auditSection_fits]
    exact succeeds_map Iff.rfl _ node
  · rw [← Section.read_succeeds yamlSection_names (by decide) yamlSection_fits]
    exact succeeds_map Iff.rfl _ node

/-- Each section sets its own part of the configuration, always read from the defaults. -/
theorem wholeSection_cases {config next : Config} {name : Text} {node : Node}
    (hname : name ∈ wholeSection.names) (hset : wholeSection.set config name node = .ok next) :
    (∃ scanner, name = "scanner" ∧ scanSection.read .default node = .ok scanner ∧
        { config with scanner } = next) ∨
      (∃ audit, name = "audit" ∧ auditSection.read .default node = .ok audit ∧
        { config with audit } = next) ∨
      ∃ yaml, name = "yaml" ∧ yamlSection.read .default node = .ok yaml ∧
        { config with yaml } = next := by
  rw [wholeSection_names] at hname
  simp only [schema, List.map_cons, List.map_nil, List.mem_cons, List.not_mem_nil,
    or_false] at hname
  rcases hname with rfl | rfl | rfl
  · change (scanSection.read .default node).map _ = _ at hset
    obtain ⟨scanner, hscanner, hnext⟩ := map_eq_ok.mp hset
    exact .inl ⟨scanner, rfl, hscanner, hnext⟩
  · change (auditSection.read .default node).map _ = _ at hset
    obtain ⟨audit, haudit, hnext⟩ := map_eq_ok.mp hset
    exact .inr (.inl ⟨audit, rfl, haudit, hnext⟩)
  · change (yamlSection.read .default node).map _ = _ at hset
    obtain ⟨yaml, hyaml, hnext⟩ := map_eq_ok.mp hset
    exact .inr (.inr ⟨yaml, rfl, hyaml, hnext⟩)

theorem tells_scanner : wholeSection.Tells "scanner" Config.scanner
    fun node scanner => scanSection.read .default node = .ok scanner := by
  intro config next other node hknown hset
  rcases wholeSection_cases hknown hset with ⟨scanner, rfl, hscanner, rfl⟩ |
    ⟨audit, rfl, haudit, rfl⟩ | ⟨yaml, rfl, hyaml, rfl⟩
  · exact hscanner
  · exact rfl
  · exact rfl

theorem tells_audit : wholeSection.Tells "audit" Config.audit
    fun node audit => auditSection.read .default node = .ok audit := by
  intro config next other node hknown hset
  rcases wholeSection_cases hknown hset with ⟨scanner, rfl, hscanner, rfl⟩ |
    ⟨audit, rfl, haudit, rfl⟩ | ⟨yaml, rfl, hyaml, rfl⟩
  · exact rfl
  · exact haudit
  · exact rfl

theorem tells_yaml : wholeSection.Tells "yaml" Config.yaml
    fun node yaml => yamlSection.read .default node = .ok yaml := by
  intro config next other node hknown hset
  rcases wholeSection_cases hknown hset with ⟨scanner, rfl, hscanner, rfl⟩ |
    ⟨audit, rfl, haudit, rfl⟩ | ⟨yaml, rfl, hyaml, rfl⟩
  · exact rfl
  · exact rfl
  · exact hyaml

/-- A document misfits exactly if a section of it is unknown or does not fit. -/
theorem misfits_iff {form : Form} {document : Entries} :
    Misfits form document ↔
      ¬∀ value ∈ document.values, Admits (SectionFits form) schema value := by
  rw [Entries.values, List.forall_mem_map]
  constructor
  · intro h hall
    cases h with
    | unknownSection hentry hname => exact hname (hall _ hentry).1
    | noSection hentry hsettings hform =>
        obtain ⟨values, hvalues, hfits⟩ := (hall _ hentry).2 _ hsettings
        rw [hform] at hvalues
        cases hvalues
    | unknownSetting hentry hsettings hform hvalue hname =>
        obtain ⟨values, hvalues, hfits⟩ := (hall _ hentry).2 _ hsettings
        obtain rfl := Option.some.inj (hform.symm.trans hvalues)
        exact hname (hfits _ hvalue).1
    | wrongKind hentry hsettings hform hvalue hkind hnot =>
        obtain ⟨values, hvalues, hfits⟩ := (hall _ hentry).2 _ hsettings
        obtain rfl := Option.some.inj (hform.symm.trans hvalues)
        exact hnot ((hfits _ hvalue).2 _ hkind)
  · intro hnot
    by_contra hfine
    refine hnot fun entry hentry => ⟨?_, fun settings hsettings => ?_⟩
    · by_contra hname
      exact hfine (.unknownSection hentry hname)
    · cases hform : form (settings.map Prod.fst) entry.2.2 with
      | none => exact absurd (.noSection hentry hsettings hform) hfine
      | some values =>
          refine ⟨values, hform, fun value hvalue => ⟨?_, fun kind hkind => ?_⟩⟩
          · by_contra hname
            exact hfine (.unknownSetting hentry hsettings hform hvalue hname)
          · by_contra hwrong
            exact hfine (.wrongKind hentry hsettings hform hvalue hkind hwrong)

/-- A document gives a configuration unless it misfits. -/
theorem ofEntries_succeeds {document : Entries} :
    (∃ config, Config.ofEntries document = .ok config) ↔ ¬Misfits .tableOrArray document := by
  simp only [Config.ofEntries, foldlM_setNamed_eq_ok, exists_and_left]
  rw [misfits_iff, not_not]
  exact setValues_succeeds wholeSection_names wholeSection_fits

theorem valueOf?_values {document : Entries} {title : Text} :
    valueOf? title document.values = (document.get? title).map Prod.snd := by
  rw [valueOf?, Entries.values, List.find?_map, Entries.get?]
  simp [Option.map_map, Function.comp_def]

/-- A setting is as its section in the document says. -/
theorem Section.Tells.sets_setting {α β : Type} {part : Section α} {name : Text} {get : α → β}
    {Is : Node → β → Prop} (htells : part.Tells name get Is) (hdate : dateTimeField ∉ part.names)
    (hnames : part.names.Nodup) {settings : List (Text × Kind)}
    (hsettings : part.names = settings.map Prod.fst) {document : Entries} (h : document.Orderly)
    {title : Text} {default result : α}
    (hpart : Sets (valueOf? title document.values)
      (fun node result => part.read default node = .ok result) default result) :
    Sets (setting? .tableOrArray document (title, settings) name) Is (get default)
      (get result) := by
  rw [valueOf?_values] at hpart
  rw [setting?]
  cases hget : document.get? title with
  | none =>
      rw [hget] at hpart
      obtain rfl : result = default := hpart
      exact rfl
  | some found =>
      rw [hget] at hpart
      have hread : part.read default found.2 = .ok result := hpart
      have hsets := htells.sets_read hdate hnames (h.get? hget) hread
      rw [hsettings] at hsets
      exact hsets

/-- What is read is what the document gives. -/
theorem gives_ofEntries {document : Entries} (h : document.Orderly) {config : Config}
    (hconfig : Config.ofEntries document = .ok config) : Gives .tableOrArray document config := by
  obtain ⟨hknown, hset⟩ := foldlM_setNamed_eq_ok.mp hconfig
  have hscanner := sets_foldlM tells_scanner hknown (nodup_values h) hset
  have haudit := sets_foldlM tells_audit hknown (nodup_values h) hset
  have hyaml := sets_foldlM tells_yaml hknown (nodup_values h) hset
  exact {
    excludeDirs := tells_excludeDirs.sets_setting (by decide) (by decide) rfl h hscanner
    exclude := tells_exclude.sets_setting (by decide) (by decide) rfl h hscanner
    gitignore := tells_gitignore.sets_setting (by decide) (by decide) rfl h hscanner
    extensions := tells_extensions.sets_setting (by decide) (by decide) rfl h haudit
    tokens := tells_tokens.sets_setting (by decide) (by decide) rfl h haudit
    mode := tells_mode.sets_setting (by decide) (by decide) rfl h haudit
    maxListed := tells_maxListed.sets_setting (by decide) (by decide) rfl h haudit
    yamlExtensions := tells_yamlExtensions.sets_setting (by decide) (by decide) rfl h hyaml }

end ConfigReading

end LiteralAudit
