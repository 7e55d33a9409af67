import BuildBlocks.Proofs.Config.Loading
import BuildBlocks.Proofs.Options.Registry
import BuildBlocks.Proofs.SortedMap

/-! # What is wrong with a configuration

Options are built by one walk over the templates, which stops at the first fault; a
configuration is looked through for empty templates before that walk.  The walk finds the first
type with a fault, in the order of the bytes (`options_eq_error_iff`), and registers what every
type asks for when there is none (`registered_of_options`).  What both find is said of the
templates as a map in `options_and_fault?`.
-/
namespace BuildBlocks
open Text

namespace Config
variable {o o' : Options} {kind template : Text} {e : HandlerError} {entries : List (Text × Text)}
  {c : Config}

/-- Why no handler can be registered for a type: it is built in, or no directive can carry it. -/
def typeFault? (kind : Text) : Option HandlerError :=
  match BlockType.ofName kind with
  | .custom _ => if BlockType.isName kind then none else some (.invalidType kind)
  | _ => some (.reservedType kind)

/-- Why a template cannot be the handler of a type: a fault in the template comes before one in
the type. -/
def faultOf? (kind template : Text) : Option HandlerError :=
  match Template.parse kind template with
  | .error e => some e
  | .ok _ => typeFault? kind

/-- The handler that renders the template, if it can be read. -/
def handlerOf? (kind template : Text) : Option Handler :=
  match Template.parse kind template with
  | .error _ => none
  | .ok t => some t.handler

theorem typeFault?_eq (kind : Text) :
    typeFault? kind =
      if kind ∈ BlockType.reserved then some (.reservedType kind)
      else if BlockType.isName kind then none
      else some (.invalidType kind) := by
  rw [typeFault?]
  split
  · rename_i htype
    rw [if_neg (BlockType.ofName_eq_custom_iff.mp htype).1]
  · rename_i htype
    rw [if_pos]
    by_contra hmem
    exact htype kind (BlockType.ofName_eq_custom_iff.mpr ⟨hmem, rfl⟩)

theorem typeFault?_eq_none_iff :
    typeFault? kind = none ↔ kind ∉ BlockType.reserved ∧ BlockType.isName kind = true := by
  rw [typeFault?_eq]
  by_cases hmem : kind ∈ BlockType.reserved
  · simp [hmem]
  · cases BlockType.isName kind <;> simp [hmem]

theorem faultOf?_eq_none_iff :
    faultOf? kind template = none ↔ kind ∉ BlockType.reserved ∧ BlockType.isName kind = true ∧
      ∃ t, Template.parse kind template = .ok t := by
  rw [faultOf?]
  cases Template.parse kind template with
  | error e => simp
  | ok t => simp [typeFault?_eq_none_iff]

/-! ## One template -/

theorem registerTemplate_eq_error_iff :
    registerTemplate o kind template = .error e ↔ faultOf? kind template = some e := by
  rw [registerTemplate, faultOf?]
  cases Template.parse kind template with
  | error e' => simp
  | ok t =>
    simp only [Options.register_eq, typeFault?_eq]
    split_ifs <;> simp

/-- The template is the handler of its type, and nothing else has changed. -/
theorem of_registerTemplate_eq_ok (h : registerTemplate o kind template = .ok o') :
    faultOf? kind template = none ∧ o'.preview = o.preview ∧
      ∀ name, o'.handlers.get? name =
        if kind = name then handlerOf? kind template else o.handlers.get? name := by
  rw [registerTemplate] at h
  rw [faultOf?_eq_none_iff, handlerOf?]
  cases hparse : Template.parse kind template with
  | error e =>
    rw [hparse] at h
    cases h
  | ok t =>
    rw [hparse] at h
    obtain ⟨hmem, hname, hpreview, hget⟩ := Options.of_register_eq_ok h
    exact ⟨⟨hmem, hname, t, rfl⟩, hpreview, hget⟩

/-! ## All templates -/

/-- The walk over the templates stops at the first fault. -/
theorem registerAll_eq_error_iff :
    registerAll o entries = .error e ↔
      entries.findSome? (fun entry => faultOf? entry.1 entry.2) = some e := by
  induction entries generalizing o with
  | nil => simp [registerAll]
  | cons entry entries ih =>
    obtain ⟨kind, template⟩ := entry
    rw [registerAll, List.findSome?_cons]
    cases hone : registerTemplate o kind template with
    | error e' => rw [registerTemplate_eq_error_iff.mp hone, Except.error.injEq, Option.some.injEq]
    | ok o' =>
      rw [(of_registerTemplate_eq_ok hone).1]
      exact ih

/-- After the walk every type has the handler that its template asks for. -/
theorem registered_of_registerAll
    (hascending : entries.Pairwise fun a b => isBefore a.1 b.1)
    (h : registerAll o entries = .ok o') :
    o'.preview = o.preview ∧ ∀ name, o'.handlers.get? name =
      match SortedMap.lookup name entries with
      | some template => handlerOf? name template
      | none => o.handlers.get? name := by
  induction entries generalizing o with
  | nil =>
    obtain rfl := Except.ok.inj h
    exact ⟨rfl, fun _ => rfl⟩
  | cons entry entries ih =>
    obtain ⟨kind, template⟩ := entry
    obtain ⟨hbefore, hascending⟩ := List.pairwise_cons.mp hascending
    rw [registerAll] at h
    cases hone : registerTemplate o kind template with
    | error e =>
      rw [hone] at h
      cases h
    | ok o₁ =>
      rw [hone] at h
      obtain ⟨_, hpreview, hget⟩ := of_registerTemplate_eq_ok hone
      obtain ⟨hpreview', hget'⟩ := ih hascending h
      refine ⟨hpreview'.trans hpreview, fun name => ?_⟩
      rw [hget', hget, SortedMap.lookup]
      by_cases hname : kind = name
      · -- no later entry is for the same type
        subst hname
        rw [SortedMap.lookup_eq_none_of_forall_isBefore hbefore, if_pos rfl, if_pos rfl]
      · rw [if_neg hname, if_neg hname]

/-- There are options when no template has a fault. -/
theorem exists_options_iff :
    (∃ o, c.options = .ok o) ↔
      ∀ kind template, c.templates.get? kind = some template → faultOf? kind template = none := by
  have hfault : (∃ o, c.options = .ok o) ↔
      c.templates.entries.findSome? (fun entry => faultOf? entry.1 entry.2) = none := by
    cases hoptions : c.options with
    | error e => simp [registerAll_eq_error_iff.mp hoptions]
    | ok o =>
      refine iff_of_true ⟨o, rfl⟩ (Option.eq_none_iff_forall_not_mem.mpr fun e he => ?_)
      have herror : c.options = .error e := registerAll_eq_error_iff.mpr he
      rw [hoptions] at herror
      cases herror
  rw [hfault, List.findSome?_eq_none_iff]
  simp only [Prod.forall, SortedMap.mem_entries_iff]

/-- The options of a configuration have its preview and the handlers of its templates. -/
theorem registered_of_options (h : c.options = .ok o) :
    o.preview = c.preview ∧ ∀ name, o.handlers.get? name =
      (c.templates.get? name).bind (handlerOf? name) := by
  obtain ⟨hpreview, hget⟩ := registered_of_registerAll c.templates.ascending h
  refine ⟨hpreview, fun name => ?_⟩
  have hname : o.handlers.get? name =
      match c.templates.get? name with
      | some template => handlerOf? name template
      | none => none := hget name
  rw [hname]
  cases c.templates.get? name <;> rfl

/-- The error is that of the first type with a fault. -/
theorem options_eq_error_iff :
    c.options = .error e ↔ ∃ kind template,
      c.templates.First (fun kind template => faultOf? kind template ≠ none) kind template ∧
        faultOf? kind template = some e := by
  rw [options, registerAll_eq_error_iff, List.findSome?_eq_some_iff]
  simp only [SortedMap.first_iff_exists_append, ne_eq, Decidable.not_not]
  constructor
  · rintro ⟨before, ⟨kind, template⟩, after, hentries, hfault, hbefore⟩
    exact ⟨kind, template, ⟨by simp [hfault], before, after, hentries, hbefore⟩, hfault⟩
  · rintro ⟨kind, template, ⟨_, before, after, hentries, hbefore⟩, hfault⟩
    exact ⟨before, (kind, template), after, hentries, hfault, hbefore⟩

/-! ## Faults -/

/-- The first empty template is the fault, if there is one. -/
theorem fault?_eq_emptyTemplate_iff :
    c.fault? = some (.emptyTemplate kind) ↔
      c.templates.First (fun _ template => template = []) kind [] := by
  have hfind : c.fault? = some (.emptyTemplate kind) ↔
      c.templates.entries.find? (fun entry => entry.2.isEmpty) = some (kind, []) := by
    rw [fault?]
    cases hfirst : c.templates.entries.find? fun entry => entry.2.isEmpty with
    | none => cases c.options <;> simp
    | some entry =>
      have hempty : entry.2 = [] := by simpa using List.find?_some hfirst
      simp [Prod.ext_iff, hempty]
  rw [hfind, List.find?_eq_some_iff_append, SortedMap.first_iff_exists_append]
  simp

/-- Without an empty template the fault is that of the options. -/
theorem fault?_of_forall_ne_nil
    (h : ∀ kind template, c.templates.get? kind = some template → template ≠ []) :
    c.fault? = none ∧ (∃ o, c.options = .ok o) ∨
      ∃ e, c.fault? = some (.handler e) ∧ c.options = .error e := by
  have hnone : c.templates.entries.find? (fun entry => entry.2.isEmpty) = none := by
    rw [List.find?_eq_none]
    rintro ⟨kind, template⟩ hentry hempty
    exact h kind template (SortedMap.mem_entries_iff.mp hentry) (List.isEmpty_iff.mp hempty)
  rw [fault?, hnone]
  cases c.options with
  | error e => exact .inr ⟨e, rfl, rfl⟩
  | ok o => exact .inl ⟨rfl, o, rfl⟩

/-- A template that is empty makes one of them the first. -/
theorem exists_emptyTemplate (h : c.templates.get? kind = some []) :
    ∃ kind, c.fault? = some (.emptyTemplate kind) := by
  have hentry : (kind, ([] : Text)) ∈ c.templates.entries := SortedMap.mem_entries_iff.mpr h
  cases hfirst : c.templates.entries.find? fun entry => entry.2.isEmpty with
  | none => exact absurd rfl (List.find?_eq_none.mp hfirst _ hentry)
  | some entry => exact ⟨entry.1, by rw [fault?, hfirst]⟩

/-- A configuration is valid when it describes options and has no empty template. -/
theorem fault?_eq_none_iff :
    c.fault? = none ↔ (∃ o, c.options = .ok o) ∧
      ∀ kind template, c.templates.get? kind = some template → template ≠ [] := by
  constructor
  · intro hnone
    refine ⟨exists_options_of_fault? hnone, fun kind template hget htemplate => ?_⟩
    subst htemplate
    obtain ⟨_, hfault⟩ := exists_emptyTemplate hget
    rw [hnone] at hfault
    cases hfault
  · rintro ⟨⟨o, ho⟩, hnonempty⟩
    rcases fault?_of_forall_ne_nil hnonempty with ⟨hnone, _⟩ | ⟨e, _, herror⟩
    · exact hnone
    · rw [ho] at herror
      cases herror

/-! ## Options of a configuration -/

/-- The types with a handler are the configured ones. -/
theorem isSome_get?_handlers (h : c.options = .ok o) (kind : Text) :
    (o.handlers.get? kind).isSome = (c.templates.get? kind).isSome := by
  rw [(registered_of_options h).2]
  cases hget : c.templates.get? kind with
  | none => rfl
  | some template =>
    obtain ⟨_, _, t, hparse⟩ := faultOf?_eq_none_iff.mp (exists_options_iff.mp ⟨o, h⟩ _ _ hget)
    rw [Option.bind_some, handlerOf?, hparse]
    rfl

/-- A block of a configured type gives way to what its template makes of it. -/
theorem replacement?_of_options (h : c.options = .ok o) {b : Block}
    (hget : c.templates.get? b.directive.kind = some template) :
    ∃ t, Template.parse b.directive.kind template = .ok t ∧ ∀ ending,
      b.replacement? ending o = some (if c.preview then b.innerContent ending
        else b.wrap ending (t.render (b.context ending))) := by
  obtain ⟨hpreview, hhandlers⟩ := registered_of_options h
  obtain ⟨hmem, _, t, hparse⟩ :=
    faultOf?_eq_none_iff.mp (exists_options_iff.mp ⟨o, h⟩ _ _ hget)
  have hhandler : o.handlers.get? b.directive.kind = some t.handler := by
    rw [hhandlers, hget, Option.bind_some, handlerOf?, hparse]
  refine ⟨t, hparse, fun ending => ?_⟩
  rw [Block.replacement?, b.reference?_of_handler hmem hhandler, hpreview]
  rfl

/-- What is loaded describes options. -/
theorem exists_options_of_load {tree : FileTree} {cwd : Place} {asked : Option Text}
    {preview : Option Bool}
    (h : ((load (FileTree.host cwd) asked preview).run tree).1 = .ok c) :
    ∃ o, c.options = .ok o := by
  rw [run_load] at h
  cases hchosen : chosen tree cwd asked with
  | error e =>
    rw [hchosen] at h
    cases h
  | ok chosen =>
    rw [hchosen] at h
    obtain rfl := Except.ok.inj h
    exact exists_options_of_chosen hchosen preview

end Config

open Config

/-- **A configuration is valid when its options can be built and no template is empty.**  Options
can be built exactly when every type is one for which handlers can be registered and every template
can be read; then the configured types, and no others, have a handler, and blocks of such a type
give way to what their own template makes of them.  Else the error is that of the first type, in
the order of the bytes, with a fault, one in the template before one in the type.  The fault of a
configuration is the first empty template, in the same order, and without an empty template the
error of the options.  So what is loaded always describes options, also with the preview that the
caller asks for. -/
theorem options_and_fault? (c : Config) :
    ((∃ o, c.options = .ok o) ↔ ∀ kind template, c.templates.get? kind = some template →
      kind ∉ BlockType.reserved ∧ BlockType.isName kind = true ∧
        ∃ t, Template.parse kind template = .ok t) ∧
    (∀ o, c.options = .ok o → o.preview = c.preview ∧
      (∀ kind, (o.handlers.get? kind).isSome = (c.templates.get? kind).isSome) ∧
      ∀ (b : Block) (template : Text), c.templates.get? b.directive.kind = some template →
        ∃ t, Template.parse b.directive.kind template = .ok t ∧ ∀ ending,
          b.replacement? ending o = some (if c.preview then b.innerContent ending
            else b.wrap ending (t.render (b.context ending)))) ∧
    (∀ e, c.options = .error e ↔ ∃ kind template,
      c.templates.First (fun kind template => faultOf? kind template ≠ none) kind template ∧
        faultOf? kind template = some e) ∧
    (c.fault? = none ↔ (∃ o, c.options = .ok o) ∧
      ∀ kind template, c.templates.get? kind = some template → template ≠ []) ∧
    (∀ kind, c.templates.get? kind = some [] → ∃ first,
      c.templates.First (fun _ template => template = []) first [] ∧
        c.fault? = some (.emptyTemplate first)) ∧
    ((∀ kind template, c.templates.get? kind = some template → template ≠ []) →
      ∀ error, c.fault? = some error ↔ ∃ e, error = .handler e ∧ c.options = .error e) ∧
    ∀ tree cwd asked preview loaded,
      ((load (FileTree.host cwd) asked preview).run tree).1 = .ok loaded →
        ∃ o, loaded.options = .ok o := by
  refine ⟨?_, fun o ho => ⟨(registered_of_options ho).1, isSome_get?_handlers ho,
    fun b template hget => replacement?_of_options ho hget⟩, fun e => options_eq_error_iff,
    fault?_eq_none_iff, fun kind hkind => ?_, fun hnonempty error => ?_,
    fun tree cwd asked preview loaded => exists_options_of_load⟩
  · rw [exists_options_iff]
    simp only [faultOf?_eq_none_iff]
  · obtain ⟨first, hfault⟩ := exists_emptyTemplate hkind
    exact ⟨first, fault?_eq_emptyTemplate_iff.mp hfault, hfault⟩
  · rcases fault?_of_forall_ne_nil hnonempty with ⟨hnone, o, ho⟩ | ⟨e, hfault, herror⟩
    · simp [hnone, ho]
    · simp [hfault, herror, eq_comm]

end BuildBlocks
