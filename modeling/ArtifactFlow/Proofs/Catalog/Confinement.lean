import ArtifactFlow.Catalog.Basic
import ArtifactFlow.Proofs.Fields
import ArtifactFlow.Proofs.Placeholder.Mention

/-!
How far arguments reach when an artifact without expressions is resolved. Of the arguments those
count whose names its own placeholders start with, and of the configuration the paths that they
spell. What stands in an argument is taken as it is: it leads to no other argument and to no path of
the configuration, and it is no reason to fail.
-/

namespace ArtifactFlow

open Placeholder

/-- A placeholder of the kind, with this body, stands in a text of a field. -/
def Declaration.Mentions (d : Declaration) (kind : Kind) (body : String) : Prop :=
  ∃ field v p, (field, v) ∈ d.extra ∧ v.Mentions p ∧ p.kind = kind ∧ p.body = body

/-- A dynamic placeholder of the declaration starts with the name. -/
def Declaration.Asks (d : Declaration) (name : String) : Prop :=
  ∃ body, d.Mentions .dynamic body ∧ (Text.splitString '.' body).head? = some name

theorem Mapping.lookup?_eq_of_head {args others : Mapping} {path : String}
    (h : ∀ name, (Text.splitString '.' path).head? = some name →
      Fields.get? name others = Fields.get? name args) : lookup? others path = lookup? args path := by
  rw [lookup?, lookup?]
  cases hsplit : Text.splitString '.' path with
  | nil => rfl
  | cons first rest =>
      dsimp only
      rw [h first (by rw [hsplit]; rfl)]

theorem StaticConfig.resolve_eq {config other : StaticConfig} {path : String}
    (h : other.get? path = config.get? path) (artifact : String) :
    other.resolve path artifact = config.resolve path artifact := by
  rw [resolve, resolve, h]

variable {same : Prop} {c : Catalog} {config : StaticConfig} {d : Declaration}
  {args others : Mapping} {artifact : String}

/-- Arguments are alike if they are there or not in both, and equal if `same` holds. -/
theorem alike_resolveArgument {body : String}
    (present : (Mapping.lookup? others body).isSome = (Mapping.lookup? args body).isSome)
    (equal : same → Mapping.lookup? others body = Mapping.lookup? args body) :
    Alike same (resolveArgument others body artifact) (resolveArgument args body artifact) := by
  rw [resolveArgument, resolveArgument]
  cases hother : Mapping.lookup? others body with
  | none =>
      cases harg : Mapping.lookup? args body with
      | none => exact .refl same _
      | some w => simp [hother, harg] at present
  | some v =>
      cases harg : Mapping.lookup? args body with
      | none => simp [hother, harg] at present
      | some w =>
          intro hsame
          exact Option.some.inj (hother.symm.trans ((equal hsame).trans harg))

theorem alike_binder {p : Placeholder}
    (static : p.kind = .static → config.get? p.body = c.config.get? p.body)
    (dynamic : p.kind = .dynamic →
      Alike same (resolveArgument others p.body artifact) (resolveArgument args p.body artifact)) :
    Alike same ((RenderMode.call false).binder ⟨config, others, artifact⟩ p)
      ((RenderMode.call false).binder ⟨c.config, args, artifact⟩ p) := by
  cases hkind : p.kind with
  | static =>
      simp only [RenderMode.binder, hkind, StaticConfig.resolve_eq (static hkind)]
      exact .refl same _
  | dynamic =>
      simp only [RenderMode.binder, hkind]
      exact (dynamic hkind).bind fun _ _ => alike_ok some
  | expression =>
      simp only [RenderMode.binder, hkind]
      exact .refl same _

namespace Catalog

/-- A nullable field is `null` in both or in neither. -/
theorem alike_resolveField {field : String} {v : Value}
    (h : Alike same (renderValue ⟨config, others, artifact⟩ (.call (d.isExpression field)) v)
      (renderValue ⟨c.config, args, artifact⟩ (.call (d.isExpression field)) v)) :
    Alike same (resolveField { c with config } d artifact others field v)
      (c.resolveField d artifact args field v) := by
  rw [resolveField, resolveField]
  revert h
  generalize renderValue ⟨config, others, artifact⟩ (.call (d.isExpression field)) v = x
  generalize renderValue ⟨c.config, args, artifact⟩ (.call (d.isExpression field)) v = y
  intro h
  cases x with
  | ok w =>
      cases y with
      | ok u => exact h
      | error e => exact absurd h id
  | error e =>
      obtain rfl := (h.error_iff e).1 rfl
      exact .refl same _

theorem alike_resolveFields {fields : Mapping}
    (h : ∀ field v, (field, v) ∈ fields →
      Alike same (renderValue ⟨config, others, artifact⟩ (.call (d.isExpression field)) v)
        (renderValue ⟨c.config, args, artifact⟩ (.call (d.isExpression field)) v)) :
    Alike same (resolveFields { c with config } d artifact others fields)
      (c.resolveFields d artifact args fields) := by
  induction fields with
  | nil => exact .refl same _
  | cons entry rest ih =>
      obtain ⟨field, v⟩ := entry
      refine (alike_resolveField (h field v List.mem_cons_self)).bind fun w u hwu => ?_
      refine (ih fun f x hx => h f x (List.mem_cons_of_mem _ hx)).bind fun out out' hout hsame => ?_
      rw [hwu hsame, hout hsame]

theorem alike_resolve {name : String} (hd : c.declaration? name = some d)
    (plain : ∀ field ∈ Fields.keys d.extra, d.isExpression field = false)
    (static : ∀ path, d.Mentions .static path → config.get? path = c.config.get? path)
    (dynamic : ∀ body, d.Mentions .dynamic body →
      Alike same (resolveArgument others body name) (resolveArgument args body name)) :
    Alike same (resolve { c with config } name others) (c.resolve name args) := by
  have hlookup : c.lookup name = .ok d := by rw [lookup, hd]
  have hother : lookup { c with config } name = .ok d := by rw [← hlookup]; rfl
  rw [resolve, resolve, hlookup, hother, ok_bind, ok_bind]
  refine (alike_resolveFields fun field v hv => ?_).bind fun _ _ =>
    alike_ok fun extra => (⟨d.name, d.artifactType, extra, d.loadOptions, d.saveOptions⟩ :
      ResolvedDeclaration)
  rw [plain field (List.mem_map_of_mem hv)]
  refine alike_renderValue v fun p hp => alike_binder (fun hkind => ?_) fun hkind => ?_
  · exact static p.body ⟨field, v, p, hv, hp, hkind, rfl⟩
  · exact dynamic p.body ⟨field, v, p, hv, hp, hkind, rfl⟩

/-- An artifact without expressions is resolved alike with any arguments that agree on the names
its placeholders start with. This is so in any configuration that agrees on the paths its own
placeholders spell, whatever paths are spelled in arguments; and whether it fails, and how, is
settled by which arguments are there. -/
theorem resolve_confined {name : String} (hd : c.declaration? name = some d)
    (plain : ∀ field ∈ Fields.keys d.extra, d.isExpression field = false) :
    ((∀ key, d.Asks key → Fields.get? key others = Fields.get? key args) →
      c.resolve name others = c.resolve name args) ∧
    ∀ config : StaticConfig,
      (∀ path, d.Mentions .static path → config.get? path = c.config.get? path) →
      ((∀ key, d.Asks key → Fields.get? key others = Fields.get? key args) →
        resolve { c with config } name others = c.resolve name args) ∧
      ((∀ body, d.Mentions .dynamic body →
          (Mapping.lookup? others body).isSome = (Mapping.lookup? args body).isSome) →
        ∀ e, resolve { c with config } name others = .error e ↔ c.resolve name args = .error e) := by
  have equal (config : StaticConfig)
      (static : ∀ path, d.Mentions .static path → config.get? path = c.config.get? path)
      (agree : ∀ key, d.Asks key → Fields.get? key others = Fields.get? key args) :
      resolve { c with config } name others = c.resolve name args := by
    have hresolve : Alike True (resolve { c with config } name others) (c.resolve name args) := by
      refine alike_resolve hd plain static fun body hbody => ?_
      have hargument := Mapping.lookup?_eq_of_head fun key hkey => agree key ⟨body, hbody, hkey⟩
      rw [resolveArgument, resolveArgument, hargument]
      exact .refl True _
    exact hresolve.eq trivial
  refine ⟨equal c.config fun _ _ => rfl, fun config static => ⟨equal config static, ?_⟩⟩
  intro present
  have hresolve : Alike False (resolve { c with config } name others) (c.resolve name args) :=
    alike_resolve hd plain static fun body hbody =>
      alike_resolveArgument (present body hbody) False.elim
  exact hresolve.error_iff

end Catalog

/-- A path with a date that comes with a run, and a label that may be left out. -/
def ledger : Declaration :=
  ⟨"ledger", "text", [("path", .string "\x7b\x7b root \x7d\x7d/!\x7b run.date \x7d"),
    ("tags", .list [.string "!\x7b label \x7d"])], [], [], ["tags"], []⟩

def ledgerCatalog : Catalog :=
  ⟨⟨[("root", .string "data")], []⟩, [("ledger", ledger)], Adapter.builtin⟩

theorem parse_ledgerPath : Segment.parse "\x7b\x7b root \x7d\x7d/!\x7b run.date \x7d" =
    .ok [.placeholder ⟨.static, "root", "\x7b\x7b root \x7d\x7d", 0⟩, .literal "/",
      .placeholder ⟨.dynamic, "run.date", "!\x7b run.date \x7d", 11⟩] := by
  have h : Segment.ofChars "\x7b\x7b root \x7d\x7d/!\x7b run.date \x7d".toList =
      .ok [.placeholder ⟨.static, "root", "\x7b\x7b root \x7d\x7d", 0⟩, .literal "/",
        .placeholder ⟨.dynamic, "run.date", "!\x7b run.date \x7d", 11⟩] := by
    decide +kernel
  rw [Segment.parse, h]

theorem parse_ledgerTag : Segment.parse "!\x7b label \x7d" =
    .ok [.placeholder ⟨.dynamic, "label", "!\x7b label \x7d", 0⟩] := by
  have h : Segment.ofChars "!\x7b label \x7d".toList =
      .ok [.placeholder ⟨.dynamic, "label", "!\x7b label \x7d", 0⟩] := by
    decide +kernel
  rw [Segment.parse, h]

theorem mentions_ledger {kind : Kind} {body : String} (h : ledger.Mentions kind body) :
    (kind = .static ∧ body = "root") ∨ (kind = .dynamic ∧ (body = "run.date" ∨ body = "label")) := by
  obtain ⟨field, v, p, hv, ⟨s, found, hs, hparse, hp⟩, rfl, rfl⟩ := h
  simp only [ledger, List.mem_cons, List.not_mem_nil, Prod.mk.injEq, or_false] at hv
  obtain ⟨-, rfl⟩ | ⟨-, rfl⟩ := hv
  · cases hs
    obtain rfl := Except.ok.inj (parse_ledgerPath.symm.trans hparse)
    obtain rfl | rfl : p = _ ∨ p = _ := by simpa using hp
    · exact .inl ⟨rfl, rfl⟩
    · exact .inr ⟨rfl, .inl rfl⟩
  · cases hs with
    | item hmem hs =>
        obtain rfl := List.mem_singleton.1 hmem
        cases hs
        obtain rfl := Except.ok.inj (parse_ledgerTag.symm.trans hparse)
        obtain rfl : p = _ := by simpa using hp
        exact .inr ⟨rfl, .inr rfl⟩

theorem asks_ledger {key : String} (h : ledger.Asks key) : key = "run" ∨ key = "label" := by
  obtain ⟨body, hbody, hkey⟩ := h
  have hrun : Text.splitString '.' "run.date" = ["run", "date"] := by decide +kernel
  have hlabel : Text.splitString '.' "label" = ["label"] := by decide +kernel
  rcases mentions_ledger hbody with ⟨hkind, -⟩ | ⟨-, rfl | rfl⟩
  · exact nomatch hkind
  · rw [hrun] at hkey
    exact .inl (Option.some.inj hkey).symm
  · rw [hlabel] at hkey
    exact .inr (Option.some.inj hkey).symm

/-- The arguments of a run on a date, with a day that no placeholder of the declaration names. -/
def ledgerArgs (date day : String) : Mapping :=
  [("run", .mapping [("date", .string date)]), ("day", .string day)]

theorem lookup?_ledgerArgs (date day : String) :
    Mapping.lookup? (ledgerArgs date day) "run.date" = some (.string date) ∧
      Mapping.lookup? (ledgerArgs date day) "label" = none := by
  have hrun : Text.splitString '.' "run.date" = ["run", "date"] := by decide +kernel
  have hlabel : Text.splitString '.' "label" = ["label"] := by decide +kernel
  rw [Mapping.lookup?, Mapping.lookup?, hrun, hlabel]
  exact ⟨rfl, rfl⟩

theorem resolve_ledger (date day : String) :
    ledgerCatalog.resolve "ledger" (ledgerArgs date day) =
      .ok ⟨"ledger", "text", [("path", .string ("data/" ++ date)), ("tags", .null)], [], []⟩ := by
  obtain ⟨hrun, hlabel⟩ := lookup?_ledgerArgs date day
  have hpath : ledgerCatalog.resolveField ledger "ledger" (ledgerArgs date day) "path"
      (.string "\x7b\x7b root \x7d\x7d/!\x7b run.date \x7d") = .ok (.string ("data/" ++ date)) := by
    have hmode : ledger.isExpression "path" = false := rfl
    have hroot : ledgerCatalog.config.resolve "root" "ledger" = .ok (.string "data") := rfl
    have hfront : "data" ++ ("/" ++ date) = "data/" ++ date := by
      rw [← String.append_assoc]
      rfl
    rw [Catalog.resolveField, hmode, renderValue, renderText, Expression.renderText,
      parse_ledgerPath]
    simp only [ok_bind, pure_eq_ok, Expression.concat, RenderMode.binder, resolveArgument, hroot,
      hrun, Value.stringify, String.append_empty, hfront]
  have htags : ledgerCatalog.resolveField ledger "ledger" (ledgerArgs date day) "tags"
      (.list [.string "!\x7b label \x7d"]) = .ok .null := by
    have hnullable : ledger.isNullable "tags" = true := rfl
    simp only [Catalog.resolveField, renderValue, renderItems, renderText, Expression.renderText,
      parse_ledgerTag, ok_bind, error_bind, RenderMode.binder, resolveArgument, hlabel, hnullable,
      if_true]
  have hlookup : ledgerCatalog.lookup "ledger" = .ok ledger := rfl
  rw [Catalog.resolve, hlookup, ok_bind]
  simp only [ledger, Catalog.resolveFields] at hpath htags ⊢
  rw [hpath, htags]
  rfl

/-- A date that looks like placeholders, one of them open, is put into the path as it is; what the
day is makes no difference. In a configuration that has a day as well, nothing fails either. -/
theorem Catalog.resolve_confined_ledger :
    ledgerCatalog.resolve "ledger" (ledgerArgs "!\x7b day \x7d\x7b\x7b day" "friday") =
        .ok ⟨"ledger", "text",
          [("path", .string ("data/" ++ "!\x7b day \x7d\x7b\x7b day")), ("tags", .null)], [], []⟩ ∧
      ∀ e, resolve { ledgerCatalog with
          config := ⟨[("root", .string "data"), ("day", .string "sunday")], []⟩ } "ledger"
            (ledgerArgs "may" "friday") ≠ .error e := by
  have hd : ledgerCatalog.declaration? "ledger" = some ledger := rfl
  have plain : ∀ field ∈ Fields.keys ledger.extra, ledger.isExpression field = false :=
    fun _ _ => rfl
  constructor
  · refine ((resolve_confined hd plain).1 fun key hkey => ?_).trans
      (resolve_ledger "!\x7b day \x7d\x7b\x7b day" "monday")
    rcases asks_ledger hkey with rfl | rfl <;> rfl
  · intro e he
    obtain ⟨-, failures⟩ := (@resolve_confined ledgerCatalog ledger (ledgerArgs "june" "monday")
      (ledgerArgs "may" "friday") "ledger" hd plain).2
      ⟨[("root", .string "data"), ("day", .string "sunday")], []⟩ (by
        intro path hpath
        rcases mentions_ledger hpath with ⟨-, rfl⟩ | ⟨hkind, -⟩
        · rfl
        · exact nomatch hkind)
    have present : ∀ body, ledger.Mentions .dynamic body →
        (Mapping.lookup? (ledgerArgs "may" "friday") body).isSome =
          (Mapping.lookup? (ledgerArgs "june" "monday") body).isSome := by
      intro body hbody
      obtain ⟨hmay, hmayLabel⟩ := lookup?_ledgerArgs "may" "friday"
      obtain ⟨hjune, hjuneLabel⟩ := lookup?_ledgerArgs "june" "monday"
      rcases mentions_ledger hbody with ⟨hkind, -⟩ | ⟨-, rfl | rfl⟩
      · exact nomatch hkind
      · rw [hmay, hjune]
        rfl
      · rw [hmayLabel, hjuneLabel]
    rw [failures present e, resolve_ledger] at he
    exact nomatch he

end ArtifactFlow
