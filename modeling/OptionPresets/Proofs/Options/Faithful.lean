import OptionPresets.Options.Listing

/-!
# OptionPresets.Proofs.Options.Faithful

The listing of a record says neither more nor less than the record. `rows` writes
the record out without the table of settings: every field, under the dotted path
that leads to it. Against these rows

* the listing renders each field under its own path (`listing_eq_map_rows`);
* the names reported as changed are the paths of the fields that differ
  (`mem_changedNames_iff`), once each and in listing order;
* no change goes unseen (`same_iff`), as different values print differently;
* writing one field changes the entry of that field and no other (`listing_set`).
-/

namespace OptionPresets

/-! ## the record written out -/

/-- A field of a record: the path to it and what it holds. -/
structure Row where
  name : String
  kind : Setting.Kind
  value : kind.Value
  deriving DecidableEq

/-- The printed form of a row. -/
def Row.entry (r : Row) : Entry := ⟨r.name, r.kind.text r.value⟩

namespace Options

/-- The fields of a record, in the order of their declaration. -/
def rows (o : Options) : List Row :=
  [⟨"skipAllPasses", .toggle, o.skipAllPasses⟩,
   ⟨"dependencyMode", .dependencyMode, o.dependencyMode⟩,
   ⟨"closurePass", .toggle, o.closurePass⟩,
   ⟨"replaceIdGenerators", .toggle, o.replaceIdGenerators⟩,
   ⟨"checks.checkSymbols", .toggle, o.checks.checkSymbols⟩,
   ⟨"checks.checkTypes", .toggle, o.checks.checkTypes⟩,
   ⟨"checks.warnings.globalThis", .override, o.checks.warnings.globalThis⟩,
   ⟨"renaming.variables", .variableRenaming, o.naming.vars⟩,
   ⟨"renaming.properties", .propertyRenaming, o.naming.properties⟩,
   ⟨"renaming.labelRenaming", .toggle, o.naming.labelRenaming⟩,
   ⟨"renaming.generatePseudoNames", .toggle, o.naming.generatePseudoNames⟩,
   ⟨"inlining.variables", .reach, o.inlining.vars⟩,
   ⟨"inlining.functions", .reach, o.inlining.functions⟩,
   ⟨"inlining.constantVars", .toggle, o.inlining.constantVars⟩,
   ⟨"inlining.assumeClosuresOnlyCaptureReferences", .toggle,
     o.inlining.assumeClosuresOnlyCaptureReferences⟩,
   ⟨"local.foldConstants", .toggle, o.localPasses.foldConstants⟩,
   ⟨"local.coalesceVariableNames", .toggle, o.localPasses.coalesceVariableNames⟩,
   ⟨"local.collapseVariableDeclarations", .toggle, o.localPasses.collapseVariableDeclarations⟩,
   ⟨"local.convertToDottedProperties", .toggle, o.localPasses.convertToDottedProperties⟩,
   ⟨"local.optimizeArgumentsArray", .toggle, o.localPasses.optimizeArgumentsArray⟩,
   ⟨"local.collapseObjectLiterals", .toggle, o.localPasses.collapseObjectLiterals⟩,
   ⟨"local.protectHiddenSideEffects", .toggle, o.localPasses.protectHiddenSideEffects⟩,
   ⟨"local.extractPrototypeMemberDeclarations", .toggle,
     o.localPasses.extractPrototypeMemberDeclarations⟩,
   ⟨"local.collapseAnonymousFunctions", .toggle, o.localPasses.collapseAnonymousFunctions⟩,
   ⟨"local.rewriteFunctionExpressions", .toggle, o.localPasses.rewriteFunctionExpressions⟩,
   ⟨"local.computeFunctionSideEffects", .toggle, o.localPasses.computeFunctionSideEffects⟩,
   ⟨"local.assumeStrictThis", .toggle, o.localPasses.assumeStrictThis⟩,
   ⟨"collapseProperties", .collapsing, o.collapseProperties⟩,
   ⟨"deadCode.removeUnreachableCode", .toggle, o.deadCode.removeUnreachableCode⟩,
   ⟨"deadCode.deadAssignmentElimination", .toggle, o.deadCode.deadAssignmentElimination⟩,
   ⟨"deadCode.removeUnusedVariables", .reach, o.deadCode.removeUnusedVariables⟩,
   ⟨"deadCode.removeUnusedPrototypeProperties", .toggle,
     o.deadCode.removeUnusedPrototypeProperties⟩,
   ⟨"deadCode.removeUnusedClassProperties", .toggle, o.deadCode.removeUnusedClassProperties⟩,
   ⟨"deadCode.smartNameRemoval", .toggle, o.deadCode.smartNameRemoval⟩,
   ⟨"deadCode.removeAbstractMethods", .toggle, o.deadCode.removeAbstractMethods⟩,
   ⟨"deadCode.removeClosureAsserts", .toggle, o.deadCode.removeClosureAsserts⟩,
   ⟨"deadCode.removeJ2clAsserts", .toggle, o.deadCode.removeJ2clAsserts⟩,
   ⟨"crossChunk.codeMotion", .toggle, o.crossChunk.codeMotion⟩,
   ⟨"crossChunk.methodMotion", .toggle, o.crossChunk.methodMotion⟩,
   ⟨"calls.devirtualizeMethods", .toggle, o.calls.devirtualizeMethods⟩,
   ⟨"calls.optimizeCalls", .toggle, o.calls.optimizeCalls⟩,
   ⟨"calls.optimizeESClassConstructors", .toggle, o.calls.optimizeESClassConstructors⟩,
   ⟨"typeBased.disambiguateProperties", .toggle, o.typeBased.disambiguateProperties⟩,
   ⟨"typeBased.ambiguateProperties", .toggle, o.typeBased.ambiguateProperties⟩,
   ⟨"typeBased.inlineProperties", .toggle, o.typeBased.inlineProperties⟩,
   ⟨"typeBased.useTypesForLocalOptimization", .toggle, o.typeBased.useTypesForLocalOptimization⟩,
   ⟨"exports.reserveRawExports", .toggle, o.exports.reserveRawExports⟩]

/-! ## rows and settings -/

/-- The row of a setting, as the table of settings has it. -/
def row (o : Options) (s : Setting) : Row := ⟨s.name, s.kind, o.get s⟩

/-- The table of settings is wired to the fields that it names. -/
theorem rows_eq_map_row (o : Options) : o.rows = Setting.all.map o.row := rfl

theorem mem_rows_iff {o : Options} {r : Row} : r ∈ o.rows ↔ ∃ s, o.row s = r := by
  rw [rows_eq_map_row, List.mem_map]
  constructor
  · rintro ⟨s, -, hs⟩
    exact ⟨s, hs⟩
  · rintro ⟨s, hs⟩
    exact ⟨s, Setting.mem_all s, hs⟩

/-- A setting has the same row in two records exactly if it has the same value. -/
theorem row_eq_row_iff {a b : Options} {s : Setting} : a.row s = b.row s ↔ a.get s = b.get s := by
  simp [row]

/-- A record has the row that a setting has in another one exactly if both have the same value. -/
theorem row_mem_rows_iff {a b : Options} {s : Setting} : b.row s ∈ a.rows ↔ a.get s = b.get s := by
  constructor
  · intro h
    obtain ⟨t, ht⟩ := mem_rows_iff.1 h
    obtain rfl : t = s := Setting.name_inj.1 (congrArg Row.name ht)
    exact row_eq_row_iff.1 ht
  · intro h
    exact mem_rows_iff.2 ⟨s, row_eq_row_iff.2 h⟩

/-- The row of a setting after a setting was written. -/
theorem row_set (o : Options) (s t : Setting) (v : s.Value) :
    (o.set s v).row t = if t.name = s.name then ⟨s.name, s.kind, v⟩ else o.row t := by
  split
  · next h =>
    obtain rfl := Setting.name_inj.1 h
    rw [row, get_set_self]
  · next h =>
    have hne : t ≠ s := fun he => h (Setting.name_inj.2 he)
    rw [row, get_set_of_ne o hne, row]

/-- Writing a setting replaces the row of its name. -/
theorem rows_set (o : Options) (s : Setting) (v : s.Value) :
    (o.set s v).rows = o.rows.map fun r => if r.name = s.name then ⟨s.name, s.kind, v⟩ else r := by
  rw [rows_eq_map_row, rows_eq_map_row, List.map_map]
  exact List.map_congr_left fun t _ => row_set o s t v

/-! ## the listing -/

/-- The listing is the record written out, in print. -/
theorem listing_eq_map_rows (o : Options) : o.listing = o.rows.map Row.entry := by
  rw [rows_eq_map_row, List.map_map]
  rfl

theorem nodup_names_listing (o : Options) : (o.listing.map (·.name)).Nodup := by
  rw [names_listing]
  exact Setting.nodup_names

/-- Writing a setting changes the listing at its name only. -/
theorem listing_set (o : Options) (s : Setting) (v : s.Value) :
    (o.set s v).listing =
      o.listing.map fun e => if e.name = s.name then ⟨s.name, s.kind.text v⟩ else e := by
  rw [listing_eq_map_rows, listing_eq_map_rows, rows_set, List.map_map, List.map_map]
  refine List.map_congr_left fun r _ => ?_
  have hname : r.entry.name = r.name := rfl
  simp only [Function.comp_apply, hname]
  split <;> rfl

/-! ## differences -/

/-- The changed names are those of the settings that differ, in listing order. -/
theorem changedNames_eq (a b : Options) :
    changedNames a b = (Setting.all.filter fun s => a.get s ≠ b.get s).map Setting.name := by
  rw [← names_changes, changes_eq, List.map_map]
  rfl

/-- A name is reported exactly if the field of that name differs. -/
theorem mem_changedNames_iff {a b : Options} {name : String} :
    name ∈ changedNames a b ↔
      ∃ x ∈ a.rows, ∃ y ∈ b.rows, x.name = name ∧ y.name = name ∧ x ≠ y := by
  rw [changedNames_eq, List.mem_map]
  constructor
  · rintro ⟨s, hs, rfl⟩
    have hne : a.get s ≠ b.get s := of_decide_eq_true (List.mem_filter.1 hs).2
    exact ⟨a.row s, mem_rows_iff.2 ⟨s, rfl⟩, b.row s, mem_rows_iff.2 ⟨s, rfl⟩, rfl, rfl,
      mt row_eq_row_iff.1 hne⟩
  · rintro ⟨x, hx, y, hy, hxn, hyn, hne⟩
    obtain ⟨s, rfl⟩ := mem_rows_iff.1 hx
    obtain ⟨t, rfl⟩ := mem_rows_iff.1 hy
    -- rows of the same name are rows of the same setting
    obtain rfl : s = t := Setting.name_inj.1 (hxn.trans hyn.symm)
    have hget : a.get s ≠ b.get s := mt row_eq_row_iff.2 hne
    exact ⟨s, List.mem_filter.2 ⟨Setting.mem_all s, decide_eq_true hget⟩, hxn⟩

/-- Changed names come in listing order. -/
theorem changedNames_sublist (a b : Options) :
    (changedNames a b).Sublist (a.listing.map (·.name)) := by
  rw [changedNames_eq, names_listing]
  exact List.filter_sublist.map Setting.name

/-- Records are the same exactly if no name is reported. -/
theorem same_iff {a b : Options} : same a b = true ↔ a = b := by
  rw [same, List.isEmpty_iff, changedNames_eq, List.map_eq_nil_iff, List.filter_eq_nil_iff]
  constructor
  · intro h
    refine eq_of_get_eq fun s => ?_
    simpa using h s (Setting.mem_all s)
  · rintro rfl
    simp

/-! ## a faithful view -/

/-- What the listings of two records have to do with the records. -/
structure Faithful (a b : Options) : Prop where
  /-- The entry under the name of a field renders that field. -/
  listing_eq : a.listing = a.rows.map Row.entry ∧ b.listing = b.rows.map Row.entry
  names_eq : a.listing.map (·.name) = b.listing.map (·.name)
  nodup_names : (a.listing.map (·.name)).Nodup
  /-- Comparing place by place never runs out of entries, and never mixes up two fields. -/
  length_eq : a.listing.length = b.listing.length
  paired : ∀ p ∈ a.listing.zip b.listing, p.1.name = p.2.name
  changed_iff : ∀ name, name ∈ changedNames a b ↔
    ∃ x ∈ a.rows, ∃ y ∈ b.rows, x.name = name ∧ y.name = name ∧ x ≠ y
  /-- Every changed name occurs once, at its place in the listing. -/
  changed_nodup : (changedNames a b).Nodup
  changed_sublist : (changedNames a b).Sublist (a.listing.map (·.name))
  same_iff : same a b = true ↔ a = b
  /-- Writing a field replaces its value in the record, and nothing but its entry in print. -/
  set_rows : ∀ (s : Setting) (v : s.Value), (a.set s v).rows =
    a.rows.map fun r => if r.name = s.name then ⟨s.name, s.kind, v⟩ else r
  set_listing : ∀ (s : Setting) (v : s.Value), (a.set s v).listing =
    a.listing.map fun e => if e.name = s.name then ⟨s.name, s.kind.text v⟩ else e

/-- The listing is a faithful view of every record, alone and beside another one. -/
theorem faithful (a b : Options) : Faithful a b where
  listing_eq := ⟨a.listing_eq_map_rows, b.listing_eq_map_rows⟩
  names_eq := by rw [names_listing, names_listing]
  nodup_names := a.nodup_names_listing
  length_eq := by rw [listing, listing, List.length_map, List.length_map]
  paired := by
    intro p hp
    rw [listing, listing, List.zip_map', List.mem_map] at hp
    obtain ⟨s, -, rfl⟩ := hp
    rfl
  changed_iff := fun _ => mem_changedNames_iff
  changed_nodup := (changedNames_sublist a b).nodup a.nodup_names_listing
  changed_sublist := changedNames_sublist a b
  same_iff := same_iff
  set_rows := a.rows_set
  set_listing := a.listing_set

end Options

end OptionPresets
