import ArtifactFlow.Project.Layers
import ArtifactFlow.Proofs.Fields
import ArtifactFlow.Proofs.Storage.Patterns
import ArtifactFlow.Proofs.Storage.Siblings
import ArtifactFlow.Proofs.Text.Name

/-!
The layers of a configuration directory. Where its path holds no wildcard, a layer is merged from
all files of the directory that have its name and an extension of YAML, in the order of their names.
A wildcard in the path makes the path a pattern itself, which need not find the directory.
-/

namespace ArtifactFlow
namespace ConfigFile

variable {d : Disk} {p : Path} {above : List String} {name : String} {content : ByteArray}

/-- The mapping that YAML content holds. -/
def mappingIn? (content : ByteArray) : Option Mapping := do
  let text ← String.fromUTF8? content
  match ← (Format.parse .yaml text).toOption with
  | .null => some []
  | .mapping fields => some fields
  | _ => none

theorem toOption_context (context : String) (x : Result α) :
    (Result.context context x).toOption = x.toOption := by
  cases x <;> rfl

theorem toOption_readMapping (hfile : d.lookup p = .ok (.file content))
    (hformat : formatOf p = .yaml) : (readMapping d p).toOption = mappingIn? content := by
  have htext : (readText d p).toOption = String.fromUTF8? content := by
    have hread : d.read p = .ok content := by
      rw [Disk.read, hfile]
      rfl
    rw [readText, toOption_context, hread]
    dsimp only
    cases String.fromUTF8? content <;> rfl
  rw [readMapping, toOption_bind, readWith, toOption_bind, htext, mappingIn?]
  simp only [toOption_context, hformat]
  cases String.fromUTF8? content with
  | none => rfl
  | some text =>
      simp only [Option.bind_eq_bind, Option.bind_some]
      cases Format.parse .yaml text with
      | error e => rfl
      | ok v => cases v <;> rfl

theorem filesMatching_of_find? {dir : Path} {pattern : String} {paths : List Path}
    (h : Glob.find? d (dir.join ⟨pattern⟩).text = some paths) :
    filesMatching d dir pattern = .ok (paths.filter d.isFile) := by
  simp only [filesMatching, h]

end ConfigFile

/-- The entries of a directory as a disk can have them. -/
structure FileTree.Proper (entries : Fields FileTree) : Prop where
  distinct : Fields.Distinct entries
  names : ∀ name ∈ Fields.keys entries, Disk.EntryName name

namespace Project

/-- The name begins with the stem and ends with the extension, and these do not overlap. -/
def isNamed (stem extension name : String) : Bool :=
  match stem.toList.isPrefixOf? name.toList with
  | some rest => extension.toList.isSuffixOf rest
  | none => false

theorem isNamed_iff {stem extension name : String} : isNamed stem extension name = true ↔
    ∃ middle, name.toList = stem.toList ++ (middle ++ extension.toList) := by
  rw [isNamed]
  split
  · rename_i rest hrest
    rw [Text.isPrefixOf?_eq_some hrest, List.isSuffixOf_iff_suffix]
    simp only [List.append_right_inj]
    exact ⟨fun ⟨middle, h⟩ => ⟨middle, h.symm⟩, fun ⟨middle, h⟩ => ⟨middle, h.symm⟩⟩
  · rename_i hnone
    have hstem := Text.isPrefixOf?_eq_none_iff.1 hnone
    exact iff_of_false Bool.false_ne_true fun ⟨middle, h⟩ => hstem ⟨_, h.symm⟩

def contentOf? (entries : Fields FileTree) (name : String) : Option ByteArray :=
  match Fields.get? name entries with
  | some (.file content) => some content
  | _ => none

/-- The names of the files of a directory that have a stem and an extension. -/
def namesWith (entries : Fields FileTree) (stem extension : String) : List String :=
  (Fields.keys entries).filter fun name =>
    isNamed stem extension name && (contentOf? entries name).isSome

/-- The names of the files that make up a layer, in ascending order. -/
def layerNames (entries : Fields FileTree) (stem : String) : List String :=
  sortedNames (namesWith entries stem ".yaml" ++ namesWith entries stem ".yml")

/-- The mappings of the files of a layer, each merged over those before it. There is none if one of
the files holds no mapping. -/
def layerOf? (entries : Fields FileTree) (stem : String) : Option Mapping :=
  (layerNames entries stem).foldlM (fun layer name => do
    let content ← contentOf? entries name
    return Mapping.merge layer (← ConfigFile.mappingIn? content)) []

def layersOf? (entries : Fields FileTree) : Option StaticConfig := do
  let base ← layerOf? entries "globals"
  let overrides ← layerOf? entries "locals"
  return ⟨base, overrides⟩

/-- A path that a pattern takes as it is written. -/
structure Literal (dir : Path) : Prop where
  plain : Glob.Plain dir.text.toList
  gapless : Glob.Gapless (Glob.origin dir) (Glob.names dir.text)

section Loading

variable {d : Disk} {dir reached : Path} {entries : Fields FileTree} {stem extension name : String}

theorem not_isNameChar_of_mem {c : Char} (h : c ∈ '/' :: '.' :: Glob.wildcards) :
    ¬ Text.isNameChar c := by
  have hall : ('/' :: '.' :: Glob.wildcards).all (fun c => !Text.isNameChar c) = true := by
    decide +kernel
  simpa using List.all_eq_true.1 hall c h

theorem fits_eq_isNamed (stem extension name : String) :
    Glob.fits (Glob.starred stem.toList extension.toList) name.toList =
      isNamed stem extension name := by
  rw [Bool.eq_iff_iff, Glob.fits_starred, isNamed_iff]

theorem contentOf?_eq_some {content : ByteArray} : contentOf? entries name = some content ↔
    Fields.get? name entries = some (.file content) := by
  rw [contentOf?]
  split
  · rename_i found hfound
    simp [hfound]
  · rename_i hnone
    simpa using hnone content

theorem mem_namesWith : name ∈ namesWith entries stem extension ↔
    isNamed stem extension name = true ∧ ∃ content, contentOf? entries name = some content := by
  rw [namesWith, List.mem_filter, Bool.and_eq_true, Option.isSome_iff_exists]
  refine and_iff_right_of_imp fun ⟨_, content, hcontent⟩ => ?_
  exact Fields.mem_keys_iff.2 ⟨_, contentOf?_eq_some.1 hcontent⟩

theorem mem_layerNames : name ∈ layerNames entries stem ↔
    (isNamed stem ".yaml" name = true ∨ isNamed stem ".yml" name = true) ∧
      ∃ content, contentOf? entries name = some content := by
  rw [layerNames, mem_sortedNames, List.mem_append, mem_namesWith, mem_namesWith, or_and_right]

/-- No name has both extensions. -/
theorem not_isNamed_of_isNamed (hlong : isNamed stem ".yaml" name = true) :
    ¬ isNamed stem ".yml" name = true := by
  intro hshort
  obtain ⟨middle, hname⟩ := isNamed_iff.1 hlong
  obtain ⟨middle', hname'⟩ := isNamed_iff.1 hshort
  have hsuffix {s t u : List Char} (h : name.toList = s ++ (t ++ u)) : u <:+ name.toList :=
    ⟨s ++ t, by rw [h, List.append_assoc]⟩
  have := List.suffix_of_suffix_length_le (hsuffix hname') (hsuffix hname) (by decide)
  exact absurd this (by decide)

theorem nodup_namesWith (hproper : FileTree.Proper entries) :
    (namesWith entries stem ".yaml" ++ namesWith entries stem ".yml").Nodup := by
  refine List.nodup_append'.2 ⟨hproper.distinct.filter _, hproper.distinct.filter _, ?_⟩
  intro name hlong hshort
  exact not_isNamed_of_isNamed (mem_namesWith.1 hlong).1 (mem_namesWith.1 hshort).1

section Found

variable (hne : dir.text ≠ "") (hplain : Glob.Plain dir.text.toList)
  (hreached : Glob.Reaches d dir reached entries) (hproper : FileTree.Proper entries)
  (hshort : ∀ name ∈ Fields.keys entries,
    (dir.join ⟨name⟩).text.utf8ByteSize < Disk.pathBound)
include hreached hproper hshort

omit hshort in
/-- The paths under which entries are found differ in the names alone. -/
theorem exists_endsWith : ∃ above, ∀ name ∈ Fields.keys entries,
    (Glob.entryPath reached name).EndsWith above name := by
  obtain ⟨above, habove⟩ := hreached.endsWith
  refine ⟨above, fun name hname => ?_⟩
  have hentry := hproper.names name hname
  exact ⟨habove name hentry.slashless, hentry.isName⟩

theorem isFile_entryPath (hname : name ∈ Fields.keys entries) :
    d.isFile (Glob.entryPath reached name) = (contentOf? entries name).isSome := by
  obtain ⟨child, hchild⟩ := Fields.mem_keys_iff.1 hname
  rw [Disk.isFile, hreached.lookup name child (hproper.names name hname) hchild (hshort name hname),
    contentOf?, hchild]
  cases child <;> rfl

theorem lookup_of_contentOf? {content : ByteArray} (h : contentOf? entries name = some content) :
    d.lookup (Glob.entryPath reached name) = .ok (.file content) := by
  have hget := contentOf?_eq_some.1 h
  have hname := Fields.mem_keys_iff.2 ⟨_, hget⟩
  exact hreached.lookup name _ (hproper.names name hname) hget (hshort name hname)

omit hshort in
theorem formatOf_of_isNamed (hstem : Text.IsName stem) (hname : name ∈ Fields.keys entries)
    (h : isNamed stem ".yaml" name = true ∨ isNamed stem ".yml" name = true) :
    ConfigFile.formatOf (Glob.entryPath reached name) = .yaml := by
  obtain ⟨above, hends⟩ := exists_endsWith hreached hproper
  have hextension (ending : List Char) {middle : List Char} (hending : '.' ∉ ending)
      (h : name.toList = stem.toList ++ (middle ++ '.' :: ending)) :
      (Glob.entryPath reached name).extension? = some (String.ofList ending) := by
    rw [← List.append_assoc] at h
    exact (hends name hname).extension? h (List.append_ne_nil_of_left_ne_nil hstem.1 middle) hending
  rw [ConfigFile.formatOf]
  obtain h | h := h
  · obtain ⟨middle, h⟩ := isNamed_iff.1 h
    rw [hextension "yaml".toList (by decide) h]
    rfl
  · obtain ⟨middle, h⟩ := isNamed_iff.1 h
    rw [hextension "yml".toList (by decide) h]
    rfl

include hne hplain

theorem filesMatching_eq (hstem : Text.IsName stem) (hextension : Glob.Plain extension.toList)
    (hextensionne : extension.toList ≠ []) (hslash : '/' ∉ extension.toList) :
    ConfigFile.filesMatching d dir (stem ++ "*" ++ extension) =
      .ok ((namesWith entries stem extension).map (Glob.entryPath reached)) := by
  have hpattern : stem ++ "*" ++ extension =
      String.ofList (stem.toList ++ '*' :: extension.toList) := by
    apply String.toList_injective
    simp
  have hmarks : ∀ c ∈ '/' :: '.' :: Glob.wildcards, c ∉ stem.toList := fun c hc hmem =>
    not_isNameChar_of_mem hc (hstem.2 c hmem)
  have hdot : stem.toList.head? ≠ some '.' := fun h =>
    hmarks '.' (by simp) (List.mem_of_mem_head? (Option.mem_def.2 h))
  have hnoslash : '/' ∉ stem.toList ++ extension.toList := by
    rw [List.mem_append, not_or]
    exact ⟨hmarks '/' (by simp), hslash⟩
  have hfound := Glob.find?_starred hne hplain hreached
    (fun c hc hmem => hmarks c (by simp [hmem]) hc) hstem.1 hdot hextension hextensionne hnoslash
  have hfiles : (Fields.keys entries).filter (fun name =>
      (d.isFile ∘ Glob.entryPath reached) name &&
        Glob.fits (Glob.starred stem.toList extension.toList) name.toList) =
          namesWith entries stem extension := by
    refine List.filter_congr fun name hname => ?_
    rw [Function.comp_apply, isFile_entryPath hreached hproper hshort hname, fits_eq_isNamed,
      Bool.and_comm]
  rw [← hpattern] at hfound
  rw [ConfigFile.filesMatching_of_find? hfound, List.filter_map, List.filter_filter, hfiles]

theorem yamlFiles_eq (hstem : Text.IsName stem) :
    ConfigFile.yamlFiles d dir (stem ++ "*") =
      .ok ((layerNames entries stem).map (Glob.entryPath reached)) := by
  have hfind (extension : String) (hplainext : Glob.Plain extension.toList)
      (hextension : extension.toList ≠ []) (hslash : '/' ∉ extension.toList) :=
    filesMatching_eq hne hplain hreached hproper hshort hstem hplainext hextension hslash
  simp only [ConfigFile.yamlFiles, hfind ".yaml" (by decide) (by decide) (by decide),
    hfind ".yml" (by decide) (by decide) (by decide), ok_bind, pure_eq_ok, ← List.map_append]
  rw [Path.sort_map, layerNames]
  · obtain ⟨above, hends⟩ := exists_endsWith hreached hproper
    intro m hm n hn
    have hkey {name : String}
        (hname : name ∈ namesWith entries stem ".yaml" ++ namesWith entries stem ".yml") :
        name ∈ Fields.keys entries :=
      (List.mem_append.1 hname).elim List.mem_of_mem_filter List.mem_of_mem_filter
    exact (hends m (hkey hm)).before_eq (hends n (hkey hn))
  · exact nodup_namesWith hproper

theorem toOption_loadLayer (hstem : Text.IsName stem) :
    (loadLayer d dir stem).toOption = layerOf? entries stem := by
  rw [loadLayer, yamlFiles_eq hne hplain hreached hproper hshort hstem, ok_bind, toOption_foldlM,
    List.foldlM_map, layerOf?]
  refine foldlM_congr fun layer name hname => ?_
  obtain ⟨hnamed, content, hcontent⟩ := mem_layerNames.1 hname
  have hkey := Fields.mem_keys_iff.2 ⟨_, contentOf?_eq_some.1 hcontent⟩
  have hread := ConfigFile.toOption_readMapping
    (lookup_of_contentOf? hreached hproper hshort hcontent)
    (formatOf_of_isNamed hreached hproper hstem hkey hnamed)
  rw [toOption_bind, hread, hcontent]
  rfl

end Found

/-- The layers that are loaded are those of the files in the directory, if its path stands for
itself in a pattern: of every file with the name of the layer, and in the order of their names. -/
theorem layers_of_literal (hdir : d.lookup dir = .ok (.directory entries))
    (hliteral : Literal dir) (hproper : FileTree.Proper entries)
    (hshort : ∀ name ∈ Fields.keys entries,
      (dir.join ⟨name⟩).text.utf8ByteSize < Disk.pathBound) :
    (loadStaticConfig d dir).toOption = layersOf? entries := by
  obtain ⟨here, hlocate, -⟩ := Disk.lookup_eq_ok.1 hdir
  have hne := (Disk.malformed?_eq_none.1 (Disk.locate_eq_ok.1 hlocate).1).2.1
  obtain ⟨reached, hreached⟩ := Glob.exists_reaches hdir hliteral.gapless
  have hlayer (stem : String) (hstem : Text.IsName stem) :=
    toOption_loadLayer hne hliteral.plain hreached hproper hshort hstem
  have hdirectory : d.isDirectory dir = true := by
    rw [Disk.isDirectory, hdir]
    rfl
  rw [loadStaticConfig, hdirectory, layersOf?, ← hlayer "globals" (by decide),
    ← hlayer "locals" (by decide)]
  cases loadLayer d dir "globals" with
  | error e => rfl
  | ok base => cases loadLayer d dir "locals" <;> rfl

end Loading

section Examples

/-- Two files of a base layer and a file of no layer. -/
def tariff : Fields FileTree :=
  [("globals.yaml", .file "rate: 5".toUTF8), ("globals-eu.yml", .file "rate: 6".toUTF8),
    ("README", .file "rate: 7".toUTF8)]

/-- The entry of a mapping of one number. -/
def onlyNumber? : Value → Option (String × Int)
  | .mapping [(key, .int n)] => some (key, n)
  | _ => none

theorem eq_of_onlyNumber? {v : Value} {key : String} {n : Int}
    (h : onlyNumber? v = some (key, n)) : v = .mapping [(key, .int n)] := by
  unfold onlyNumber? at h
  split at h
  · obtain ⟨rfl, rfl⟩ := Prod.mk.inj (Option.some.inj h)
    rfl
  · cases h

theorem mappingIn?_of_onlyNumber? {text key : String} {n : Int}
    (htext : String.fromUTF8? text.toUTF8 = some text)
    (h : (Format.parse .yaml text).toOption.bind onlyNumber? = some (key, n)) :
    ConfigFile.mappingIn? text.toUTF8 = some [(key, .int n)] := by
  obtain ⟨v, hv, hentry⟩ := Option.bind_eq_some_iff.1 h
  rw [eq_of_onlyNumber? hentry] at hv
  rw [ConfigFile.mappingIn?, htext]
  simp only [Option.bind_eq_bind, Option.bind_some, hv]

theorem mappingIn?_rate : ConfigFile.mappingIn? "rate: 5".toUTF8 = some [("rate", .int 5)] ∧
    ConfigFile.mappingIn? "rate: 6".toUTF8 = some [("rate", .int 6)] :=
  ⟨mappingIn?_of_onlyNumber? (by decide +kernel) (by decide +kernel),
    mappingIn?_of_onlyNumber? (by decide +kernel) (by decide +kernel)⟩

theorem layersOf?_tariff : layersOf? tariff = some ⟨[("rate", .int 5)], []⟩ := by
  have hnames : layerNames tariff "globals" = ["globals-eu.yml", "globals.yaml"] ∧
      layerNames tariff "locals" = [] := by
    decide +kernel
  have hcontents : contentOf? tariff "globals.yaml" = some "rate: 5".toUTF8 ∧
      contentOf? tariff "globals-eu.yml" = some "rate: 6".toUTF8 := ⟨rfl, rfl⟩
  rw [layersOf?, layerOf?, layerOf?, hnames.1, hnames.2]
  simp only [List.foldlM_cons, List.foldlM_nil, hcontents, mappingIn?_rate, Option.bind_eq_bind,
    Option.bind_some, Option.pure_def, Option.some.injEq]
  rfl

theorem proper_tariff : FileTree.Proper tariff :=
  ⟨(by decide : (Fields.keys tariff).Nodup), by decide⟩

/-- The directory is found under a path with a superfluous dot. -/
theorem layers_of_literal_tariff :
    let d : Disk := ⟨.directory [("shop", .directory [("conf", .directory tariff)])], ["shop"]⟩
    d.lookup ⟨"./conf"⟩ = .ok (.directory tariff) ∧ Literal ⟨"./conf"⟩ ∧ FileTree.Proper tariff ∧
      (∀ name ∈ Fields.keys tariff,
        ((⟨"./conf"⟩ : Path).join ⟨name⟩).text.utf8ByteSize < Disk.pathBound) ∧
      (loadStaticConfig d ⟨"./conf"⟩).toOption = some ⟨[("rate", .int 5)], []⟩ := by
  intro d
  have hdir : d.lookup ⟨"./conf"⟩ = .ok (.directory tariff) := rfl
  have hliteral : Literal ⟨"./conf"⟩ := ⟨by decide, fun _ => by decide⟩
  have hshort : ∀ name ∈ Fields.keys tariff,
      ((⟨"./conf"⟩ : Path).join ⟨name⟩).text.utf8ByteSize < Disk.pathBound := by
    decide
  refine ⟨hdir, hliteral, proper_tariff, hshort, ?_⟩
  rw [layers_of_literal hdir hliteral proper_tariff hshort, layersOf?_tariff]

/-- The same files in a directory with brackets in its name. -/
def bracketed : Disk :=
  ⟨.directory [("conf[1]", .directory tariff)], []⟩

/-- The brackets are read as a set of characters, and no other directory has the name that they
stand for. -/
theorem loadStaticConfig_bracketed :
    (loadStaticConfig bracketed ⟨"/conf[1]"⟩).toOption = some .empty := by
  have hfind : ∀ stem ∈ ["globals", "locals"], ∀ extension ∈ [".yaml", ".yml"],
      Glob.find? bracketed ((⟨"/conf[1]"⟩ : Path).join ⟨stem ++ "*" ++ extension⟩).text =
        some [] := by
    decide +kernel
  have hlayer : ∀ stem ∈ ["globals", "locals"], loadLayer bracketed ⟨"/conf[1]"⟩ stem = .ok [] := by
    intro stem hstem
    have hnone : ∀ extension ∈ [".yaml", ".yml"],
        ConfigFile.filesMatching bracketed ⟨"/conf[1]"⟩ (stem ++ "*" ++ extension) = .ok [] := by
      intro extension hextension
      exact ConfigFile.filesMatching_of_find? (hfind stem hstem extension hextension)
    rw [loadLayer, ConfigFile.yamlFiles, hnone ".yaml" (by decide), hnone ".yml" (by decide)]
    rfl
  have hdirectory : bracketed.isDirectory ⟨"/conf[1]"⟩ = true := by decide +kernel
  rw [loadStaticConfig, hdirectory, hlayer "globals" (by decide), hlayer "locals" (by decide)]
  rfl

/-- In a directory with brackets in its name no file is found. -/
theorem not_layers_of_directory :
    ¬ ∀ (d : Disk) (dir : Path) (entries : Fields FileTree),
      d.lookup dir = .ok (.directory entries) → FileTree.Proper entries →
      (∀ name ∈ Fields.keys entries, (dir.join ⟨name⟩).text.utf8ByteSize < Disk.pathBound) →
      (loadStaticConfig d dir).toOption = layersOf? entries := by
  intro hall
  have hlookup : bracketed.lookup ⟨"/conf[1]"⟩ = .ok (.directory tariff) := rfl
  have hloaded := hall bracketed ⟨"/conf[1]"⟩ tariff hlookup proper_tariff (by decide)
  rw [loadStaticConfig_bracketed, layersOf?_tariff] at hloaded
  have hbase := congrArg StaticConfig.base (Option.some.inj hloaded)
  exact List.cons_ne_nil _ _ hbase.symm

end Examples

end Project
end ArtifactFlow
