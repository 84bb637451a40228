import EthRpc.Codegen.Closed

/-! # Termination of the generator

    The rounds of `generate_types` are refilled by the definitions they print,
    with the names of references and with names made up for unions. All of them
    come from the schemas of the components, and from what was collected at the
    start.

    * `asks_of_asked_union`: a union that is asked for asks for nothing new.
    * `exists_all_asks`: finitely many requests that contain those of each.
    * `generate_types_ends`: the rounds end, and no name is printed twice.
-/

namespace EthRpc

namespace Codegen

section termination
variable {inflector : Inflector} {specs : OpenRpc}
variable {schema : Schema} {ask : Ask} {name : String}

/-! ## Unions that are asked for -/

/-- What asks for something has a name. -/
theorem has_name_of_asks (h : ask ∈ asks inflector schema) : HasName inflector schema := by
  unfold asks at h
  split at h
  · next o calls hyields =>
    cases o with
    | some info => exact ⟨info, calls, hyields⟩
    | none =>
      obtain ⟨-, rfl⟩ := object_of_yields_none hyields
      simp at h
  · simp at h

/-- A union adds a request for itself. -/
theorem HasName.asks_union {items : List Schema} (h : HasName inflector schema)
    (hunion : UnionOf schema.contents items) (hparts : schema.parts = items)
    (hplaces : places schema = items) :
    ∃ own, asks inflector schema = schema.parts.flatMap (asks inflector) ++ own ∧
      ∀ ask ∈ own, (∃ reference, ask.2 = .Reference reference) ∨
        ask.2 = .Schema schema ∧ places schema = schema.parts := by
  subst hparts
  refine ⟨_, (h.union hunion).2.2, ?_⟩
  intro ask hask
  by_cases hmany : 1 < (alternatives inflector schema.parts).length
  · rw [if_pos hmany] at hask
    obtain rfl := List.mem_singleton.mp hask
    exact Or.inr ⟨rfl, hplaces⟩
  · rw [if_neg hmany] at hask
    simp at hask

/-- Beside what its parts ask for, a schema asks for what it refers to, or for
    itself. -/
theorem HasName.asks_parts (h : HasName inflector schema) :
    ∃ own, asks inflector schema = schema.parts.flatMap (asks inflector) ++ own ∧
      ∀ ask ∈ own, (∃ reference, ask.2 = .Reference reference) ∨
        ask.2 = .Schema schema ∧ places schema = schema.parts := by
  rcases schema with ⟨title, description, contents⟩
  cases contents with
  | Reference reference =>
    refine ⟨_, h.reference rfl, ?_⟩
    intro ask hask
    obtain rfl := List.mem_singleton.mp hask
    exact Or.inl ⟨reference, rfl⟩
  | AllOf all_of =>
    refine ⟨[], ?_, by simp⟩
    rw [List.append_nil]
    exact (h.all_of rfl).2.2
  | AnyOf items => exact h.asks_union (Or.inl rfl) rfl rfl
  | OneOf items => exact h.asks_union (Or.inr rfl) rfl rfl
  | Object object =>
    obtain ⟨info, calls, h⟩ := h
    simp [type_info] at h
  | Literal l =>
    obtain ⟨info, calls, hinfo⟩ := h
    refine ⟨[], ?_, by simp⟩
    rcases literal_of_yields hinfo with ⟨items, rfl⟩ | ⟨harray, -, rfl, -⟩
    · rw [List.append_nil, (HasName.array ⟨info, calls, hinfo⟩ rfl).2.2]
      exact (List.flatMap_singleton _ _).symm
    · have hparts : (Schema.mk title description (.Literal l)).parts = [] := by
        cases l with
        | Array items => exact absurd rfl (harray items)
        | _ => rfl
      rw [hparts, ← asks_of_yields hinfo]
      rfl

/-- The union is a part of the schema, so that its alternatives are asked about
    for the schema, too. -/
theorem asks_of_asked_union {union : Schema} (h : (name, .Schema union) ∈ asks inflector schema) :
    (places union).flatMap (asks inflector) ⊆ asks inflector schema := by
  induction schema using Schema.induction_parts with
  | h schema ih =>
    obtain ⟨own, hasks, hown⟩ := (has_name_of_asks h).asks_parts
    rw [hasks] at h ⊢
    rcases List.mem_append.mp h with hpart | hown'
    · obtain ⟨part, hpart, hmem⟩ := List.mem_flatMap.mp hpart
      intro ask hask
      exact List.mem_append_left own (List.mem_flatMap.mpr ⟨part, hpart, ih part hpart hmem hask⟩)
    · rcases hown _ hown' with ⟨reference, href⟩ | ⟨hself, hplaces⟩
      · simp at href
      · obtain rfl := ReferenceOrSchema.Schema.inj hself
        rw [hplaces]
        exact List.subset_append_left _ own

/-! ## All requests -/

/-- The schemas that references lead to are finitely many. -/
theorem exists_components (specs : OpenRpc) :
    ∃ components : List Schema, ∀ reference schema,
      specs.get_schema reference = some schema → schema ∈ components := by
  cases hcomponents : specs.components with
  | none =>
    refine ⟨[], fun reference schema h => ?_⟩
    unfold OpenRpc.get_schema at h
    split at h
    · simp [hcomponents] at h
    · simp at h
  | some schemas =>
    refine ⟨schemas.keys.toList.filterMap schemas.lookup, fun reference schema h => ?_⟩
    unfold OpenRpc.get_schema at h
    split at h
    · next name _ _ =>
      have hlookup : schemas.lookup name = some schema := by simpa [hcomponents] using h
      have hkey : name ∈ schemas := Finmap.mem_of_lookup_eq_some hlookup
      exact List.mem_filterMap.mpr ⟨name, Finset.mem_toList.mpr (Finmap.mem_keys.mpr hkey), hlookup⟩
    · simp at h

theorem expand_reference {reference : String} : expand inflector specs name (.Reference reference) =
    match specs.get_schema reference with
    | some schema => (places schema).flatMap (asks inflector)
    | none => [] := by
  cases hschema : specs.get_schema reference with
  | some schema => simp [expand, ReferenceOrSchema.schema, hschema]
  | none => simp [expand, ReferenceOrSchema.schema, hschema]

/-- What a definition asks for comes from some schemas. -/
theorem exists_expand_eq (inflector : Inflector) (specs : OpenRpc) (name : String)
    (ref_or_schema : ReferenceOrSchema) :
    ∃ schemas : List Schema,
      expand inflector specs name ref_or_schema = schemas.flatMap (asks inflector) := by
  unfold expand
  split
  · next schema _ => exact ⟨places schema, rfl⟩
  · exact ⟨[], rfl⟩

theorem expand_of_mem {schemas : List Schema} {union : Schema}
    (h : (name, .Schema union) ∈ schemas.flatMap (asks inflector)) :
    expand inflector specs name (.Schema union) ⊆ schemas.flatMap (asks inflector) := by
  obtain ⟨schema, hschema, hmem⟩ := List.mem_flatMap.mp h
  intro ask hask
  exact List.mem_flatMap.mpr ⟨schema, hschema, asks_of_asked_union hmem hask⟩

/-- **Finitely many requests** contain those at the start, and what each of them
    asks for. -/
theorem exists_all_asks (inflector : Inflector) (specs : OpenRpc) (start : List Ask) :
    ∃ all : List Ask, start ⊆ all ∧ ∀ ask ∈ all, expand inflector specs ask.1 ask.2 ⊆ all := by
  obtain ⟨components, hcomponents⟩ := exists_components specs
  let later := start.flatMap fun ask => expand inflector specs ask.1 ask.2
  let of_components := (components.flatMap places).flatMap (asks inflector)
  refine ⟨start ++ (later ++ of_components), List.subset_append_left _ _, ?_⟩
  have hlater : later ⊆ start ++ (later ++ of_components) := fun ask hask =>
    List.mem_append_right _ (List.mem_append_left _ hask)
  have hcomponents' : of_components ⊆ start ++ (later ++ of_components) := fun ask hask =>
    List.mem_append_right _ (List.mem_append_right _ hask)
  rintro ⟨name, ref_or_schema⟩ hask
  cases ref_or_schema with
  | Reference reference =>
    refine List.Subset.trans ?_ hcomponents'
    show expand inflector specs name (.Reference reference) ⊆ of_components
    rw [expand_reference]
    cases hschema : specs.get_schema reference with
    | none => simp
    | some schema =>
      intro ask hmem
      obtain ⟨place, hplace, hmem⟩ := List.mem_flatMap.mp hmem
      exact List.mem_flatMap.mpr ⟨place, List.mem_flatMap.mpr
        ⟨schema, hcomponents reference schema hschema, hplace⟩, hmem⟩
  | Schema union =>
    -- a union is asked for by a schema that asks for what its alternatives do
    rcases List.mem_append.mp hask with hstart | hask
    · exact List.Subset.trans (fun ask hmem => List.mem_flatMap.mpr ⟨_, hstart, hmem⟩) hlater
    · rcases List.mem_append.mp hask with hask | hask
      · obtain ⟨first, hfirst, hmem⟩ := List.mem_flatMap.mp hask
        obtain ⟨schemas, hschemas⟩ := exists_expand_eq inflector specs first.1 first.2
        rw [hschemas] at hmem
        intro ask hexpand
        apply hlater
        refine List.mem_flatMap.mpr ⟨first, hfirst, ?_⟩
        rw [hschemas]
        exact expand_of_mem hmem hexpand
      · exact List.Subset.trans (expand_of_mem hask) hcomponents'

/-! ## The rounds end -/

/-- References resolve, and schemas are supported, in whatever is generated:
    none of it is a panic. -/
def Supported (inflector : Inflector) (specs : OpenRpc) (g : TypeGenerator) : Prop :=
  ∀ name ref_or_schema, Worklist.Taken (expand inflector specs) g.toState name ref_or_schema →
    ∃ printer calls, (generate_collected inflector specs name ref_or_schema).Yields printer calls

/-- **Type generation ends**, and prints no name twice. -/
theorem generate_types_ends (g : TypeGenerator) (hcollected : (Worklist.names g.collected).Nodup)
    (hsupported : Supported inflector specs g) :
    ∃ rounds types,
      (∀ fuel, rounds ≤ fuel → g.generate_types inflector fuel specs = .ok (some types)) ∧
        (types.map (·.name)).Nodup := by
  obtain ⟨all, hstart, hall⟩ := exists_all_asks inflector specs g.collected
  have huniverse : ∀ name ref_or_schema,
      Worklist.Taken (expand inflector specs) g.toState name ref_or_schema →
        name ∈ (Worklist.names all).toFinset := by
    intro name ref_or_schema htaken
    have hmem : (name, ref_or_schema) ∈ all :=
      htaken.induction (P := fun name ref_or_schema => (name, ref_or_schema) ∈ all)
        (fun entry hentry => hstart hentry) (fun name ref_or_schema hmem ask hask => hall _ hmem hask)
    exact List.mem_toFinset.mpr (Worklist.mem_names.mpr ⟨ref_or_schema, hmem⟩)
  have hwork : ∀ name ref_or_schema,
      Worklist.Taken (expand inflector specs) g.toState name ref_or_schema →
        ∃ printer, generate_collected inflector specs name ref_or_schema =
          .ok (printer, expand inflector specs name ref_or_schema) := by
    intro name ref_or_schema htaken
    obtain ⟨printer, calls, hyields⟩ := hsupported name ref_or_schema htaken
    have hcalls := (generate_collected_eq_ok hyields).2.1
    exact ⟨printer, hcalls ▸ hyields⟩
  obtain ⟨rounds, types, hrun⟩ := Worklist.run_ends huniverse hwork
  refine ⟨rounds, types, hrun, ?_⟩
  obtain ⟨entries, hdone, hnodup, -⟩ := Worklist.run_results
    (fun _ _ _ _ hwork => (generate_collected_eq_ok hwork).2.1) hcollected (hrun rounds le_rfl)
  have hnames : types.map (·.name) = Worklist.names entries :=
    Worklist.map_of_done (fun entry printer hentry => by
      obtain ⟨calls, hwork⟩ := hentry
      exact (generate_collected_eq_ok hwork).1) hdone
  rw [hnames]
  exact hnodup

end termination

/-! ## A recursive document -/

/-- A leaf or a tree. -/
def leaf_or_tree : Schema := .of_contents (.OneOf [component "Leaf", component "Tree"])

/-- A tree has a child, and a leaf knows its tree. -/
def recursive_specs : OpenRpc where
  methods := []
  components :=
    let tree := Schema.of_contents (.Object (.mk [("child", leaf_or_tree)] [] []))
    let leaf := Schema.of_contents (.Object (.mk [("parent", component "Tree")] [] []))
    some (((∅ : Map String Schema).insert "Tree" tree).insert "Leaf" leaf)

/-- A generator that starts with the trees. -/
def recursive_generator : TypeGenerator :=
  (TypeGenerator.new letters_inflector).collect_extra_type "Tree"

theorem supported_recursive : Supported letters_inflector recursive_specs recursive_generator := by
  let tree : Ask := ("Tree", .Reference "#/components/schemas/Tree")
  let leaf : Ask := ("Leaf", .Reference "#/components/schemas/Leaf")
  let union : Ask := ("LeafOrTree", .Schema leaf_or_tree)
  have htree : expand letters_inflector recursive_specs tree.1 tree.2 = [leaf, tree, union] := by
    rfl
  have hleaf : expand letters_inflector recursive_specs leaf.1 leaf.2 = [tree] := by rfl
  have hunion : expand letters_inflector recursive_specs union.1 union.2 = [leaf, tree] := by rfl
  intro name ref_or_schema htaken
  have hmem : (name, ref_or_schema) ∈ [leaf, tree, union] := by
    apply htaken.induction (P := fun name ref_or_schema => (name, ref_or_schema) ∈ [leaf, tree, union])
    · intro entry hentry
      have hcollected : recursive_generator.collected = [tree] := by rfl
      rw [hcollected] at hentry
      exact List.mem_cons_of_mem _ (List.mem_cons.mpr (Or.inl (List.mem_singleton.mp hentry)))
    · intro name ref_or_schema hmem ask hask
      simp only [List.mem_cons, List.not_mem_nil, or_false] at hmem
      rcases hmem with heq | heq | heq
      · obtain ⟨rfl, rfl⟩ := Prod.mk.inj heq
        rw [hleaf] at hask
        exact List.mem_cons_of_mem _ (List.mem_cons.mpr (Or.inl (List.mem_singleton.mp hask)))
      · obtain ⟨rfl, rfl⟩ := Prod.mk.inj heq
        rw [htree] at hask
        exact hask
      · obtain ⟨rfl, rfl⟩ := Prod.mk.inj heq
        rw [hunion] at hask
        exact List.mem_append_left [union] hask
  simp only [List.mem_cons, List.not_mem_nil, or_false] at hmem
  rcases hmem with heq | heq | heq
  · obtain ⟨rfl, rfl⟩ := Prod.mk.inj heq
    exact ⟨_, _, rfl⟩
  · obtain ⟨rfl, rfl⟩ := Prod.mk.inj heq
    exact ⟨_, _, rfl⟩
  · obtain ⟨rfl, rfl⟩ := Prod.mk.inj heq
    exact ⟨_, _, rfl⟩

/-- Trees and leaves refer to each other, and are generated once. -/
theorem generate_types_ends_recursive :
    ∃ rounds types,
      (∀ fuel, rounds ≤ fuel →
        recursive_generator.generate_types letters_inflector fuel recursive_specs =
          .ok (some types)) ∧
        (types.map (·.name)).Nodup :=
  generate_types_ends recursive_generator (by decide +kernel) supported_recursive

end Codegen

end EthRpc
