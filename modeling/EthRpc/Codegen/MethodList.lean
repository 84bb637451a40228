import EthRpc.Codegen.Closed

/-! # The list of methods

    `generate_rpc_methods` finds out that a method is missing by counting: the
    methods of the document that it was asked for are as many as their names.

    * `exists_generate_rpc_methods_iff`: when the signatures are generated.
    * `all_listed_iff`: they are those that were asked for, one for each name, if
      and only if no name is listed twice.
-/

namespace EthRpc

namespace Codegen

section methods
variable {inflector : Inflector} {specs : OpenRpc} {g : TypeGenerator}
variable {calls : List Ask}

/-! ## Listed methods -/

/-- The methods are given inline, those that were asked for are as many as their
    names, and each of them has a signature. -/
structure CountsRight (inflector : Inflector) (g : TypeGenerator) (specs : OpenRpc) : Prop where
  inline : ∀ method ∈ specs.methods, ∃ v, method = .Inline v
  count : (g.listed specs).length = g.filtered_method_names.card
  printable : ∀ method ∈ g.listed specs,
    ∃ signature calls, (generate_rpc_method inflector method).Yields signature calls

theorem perform_of_yields {α : Type} {x : Gen α} {a : α} (h : x.Yields a calls) :
    ∃ g', g.perform x = .ok (a, g') := by
  unfold Gen.Yields at h
  exact ⟨{ g with toState := g.toState.collect_all calls }, by rw [TypeGenerator.perform, h]; rfl⟩

/-- All methods are unwrapped if they are given inline. -/
theorem exists_supported (h : ∀ method ∈ specs.methods, ∃ v, method = .Inline v) :
    ∃ calls, (g.supported specs).Yields (g.listed specs) calls := by
  have hinline : ∀ method ∈ specs.methods,
      ∃ v calls, (Gen.lift (method.unwrap_inline : Outcome Empty Method)).Yields v calls := by
    intro method hmethod
    obtain ⟨v, rfl⟩ := h method hmethod
    exact ⟨v, [], Gen.yields_lift.mpr ⟨rfl, rfl⟩⟩
  obtain ⟨methods, calls, hmethods⟩ := Gen.exists_yields_each hinline
  have hsupported : (g.supported specs).Yields
      (methods.filter fun method => method.name ∈ g.filtered_method_names) calls :=
    Gen.yields_map.mpr ⟨methods, hmethods, rfl⟩
  exact ⟨_, (supported_eq_listed hsupported).1 ▸ hsupported⟩

theorem inline_of_supported {methods : List Method}
    (h : (g.supported specs).Yields methods calls) :
    ∀ method ∈ specs.methods, ∃ v, method = .Inline v := by
  obtain ⟨all, calls₁, calls₂, hall, -, -⟩ := Gen.yields_bind.mp h
  intro method hmethod
  obtain ⟨v, calls₃, hv⟩ := Gen.exists_yields_of_each hall method hmethod
  have hok := (Gen.yields_lift.mp hv).1
  cases method with
  | Reference reference => simp [RefOr.unwrap_inline] at hok
  | Inline v' => exact ⟨v', rfl⟩

/-- A signature has the name of its method. -/
theorem name_of_signature {method : Method} {signature : Signature}
    (h : (generate_rpc_method inflector method).Yields signature calls) :
    signature.name = method.name := by
  obtain ⟨result, calls₁, calls₂, -, hrest, -⟩ := Gen.yields_bind.mp h
  obtain ⟨parameters, -, rfl⟩ := Gen.yields_map.mp hrest
  rfl

theorem names_of_each {methods : List Method} {signatures : List Signature}
    (h : (Gen.each (generate_rpc_method inflector) methods).Yields signatures calls) :
    signatures.map (·.name) = methods.map (·.name) := by
  have heach : signatures.map (·.name) = methods.map (·.name) ∧
      calls = methods.flatMap (fun method => method.places.flatMap (asks inflector)) ∧
      ∀ method ∈ methods, True :=
    Gen.yields_each (fun method signature calls hmethod =>
      ⟨name_of_signature hmethod, (generate_rpc_method_yields hmethod).2.1, trivial⟩) h
  exact heach.1

/-- What is generated has the names of the methods, and they were counted. -/
theorem names_of_signatures {signatures : List Signature} {g' : TypeGenerator}
    (h : g.generate_rpc_methods inflector specs = .ok (signatures, g')) :
    signatures.map (·.name) = (g.listed specs).map (·.name) ∧ CountsRight inflector g specs := by
  obtain ⟨calls, hcalls, -⟩ := perform_eq_ok h
  obtain ⟨methods, calls₁, calls₂, hsupported, hrest, -⟩ := Gen.yields_bind.mp hcalls
  have hinline := inline_of_supported hsupported
  obtain ⟨rfl, rfl⟩ := supported_eq_listed hsupported
  by_cases hmissing : (g.listed specs).length ≠ g.filtered_method_names.card
  · rw [if_pos hmissing] at hrest
    exact absurd hrest Gen.not_yields_panic
  · rw [if_neg hmissing] at hrest
    have hnames : signatures.map (·.name) = (g.listed specs).map (·.name) :=
      names_of_each hrest
    exact ⟨hnames, hinline, not_not.mp hmissing, Gen.exists_yields_of_each hrest⟩

/-- **The signatures are generated** if the count is right, and nothing else
    fails. -/
theorem exists_generate_rpc_methods_iff :
    (∃ signatures g', g.generate_rpc_methods inflector specs = .ok (signatures, g')) ↔
      CountsRight inflector g specs := by
  constructor
  · intro h
    obtain ⟨signatures, g', h⟩ := h
    exact (names_of_signatures h).2
  · intro h
    obtain ⟨calls, hsupported⟩ := exists_supported (g := g) h.inline
    obtain ⟨signatures, calls', hsignatures⟩ := Gen.exists_yields_each h.printable
    refine ⟨signatures, perform_of_yields (Gen.yields_bind.mpr
      ⟨g.listed specs, calls, calls', hsupported, ?_, rfl⟩)⟩
    rw [if_neg (not_not.mpr h.count)]
    exact hsignatures

/-! ## Every name once -/

/-- If code is returned, every name that was asked for is in the document, and
    has exactly one signature; there is no other signature. -/
def AllListed (inflector : Inflector) (g : TypeGenerator) (specs : OpenRpc) : Prop :=
  ∀ signatures g', g.generate_rpc_methods inflector specs = .ok (signatures, g') →
    (∀ name ∈ g.filtered_method_names, ∃ method ∈ specs.methods.flatMap RefOr.inlined,
      method.name = name) ∧
    (∀ name ∈ g.filtered_method_names, (signatures.map (·.name)).count name = 1) ∧
    ∀ signature ∈ signatures, signature.name ∈ g.filtered_method_names

theorem mem_of_listed {method : Method} (h : method ∈ g.listed specs) :
    method ∈ specs.methods.flatMap RefOr.inlined ∧ method.name ∈ g.filtered_method_names := by
  obtain ⟨hmem, hname⟩ := List.mem_filter.mp h
  exact ⟨hmem, by simpa using hname⟩

/-- Names that are as many as those that were asked for, and all different, are
    those that were asked for. -/
theorem toFinset_names_eq (hcount : (g.listed specs).length = g.filtered_method_names.card)
    (hnodup : ((g.listed specs).map (·.name)).Nodup) :
    ((g.listed specs).map (·.name)).toFinset = g.filtered_method_names := by
  apply Finset.eq_of_subset_of_card_le
  · intro name hname
    obtain ⟨method, hmethod, rfl⟩ := List.mem_map.mp (List.mem_toFinset.mp hname)
    exact (mem_of_listed hmethod).2
  · rw [List.toFinset_card_of_nodup hnodup, List.length_map, hcount]

/-- **All methods are listed**, and no other, if and only if no name is listed
    twice where the count is right. -/
theorem all_listed_iff (inflector : Inflector) (g : TypeGenerator) (specs : OpenRpc) :
    AllListed inflector g specs ↔
      (CountsRight inflector g specs → ((g.listed specs).map (·.name)).Nodup) := by
  constructor
  · intro hall hcounts
    obtain ⟨signatures, g', h⟩ := exists_generate_rpc_methods_iff.mpr hcounts
    obtain ⟨-, hone, -⟩ := hall signatures g' h
    rw [(names_of_signatures h).1] at hone
    rw [List.nodup_iff_count_eq_one]
    intro name hname
    obtain ⟨method, hmethod, rfl⟩ := List.mem_map.mp hname
    exact hone _ (mem_of_listed hmethod).2
  · intro hdistinct signatures g' h
    obtain ⟨hnames, hcounts⟩ := names_of_signatures h
    have hnodup := hdistinct hcounts
    have hset := toFinset_names_eq hcounts.count hnodup
    have hmem : ∀ name, name ∈ g.filtered_method_names ↔
        name ∈ (g.listed specs).map (·.name) := by
      intro name
      rw [← hset, List.mem_toFinset]
    refine ⟨fun name hname => ?_, fun name hname => ?_, fun signature hsignature => ?_⟩
    · obtain ⟨method, hmethod, heq⟩ := List.mem_map.mp ((hmem name).mp hname)
      exact ⟨method, (mem_of_listed hmethod).1, heq⟩
    · rw [hnames]
      exact List.count_eq_one_of_mem hnodup ((hmem name).mp hname)
    · rw [hmem, ← hnames]
      exact List.mem_map_of_mem hsignature

end methods

/-! ## A method in place of another -/

/-- The supported methods, but for `eth_accounts`, in whose place `net_version`
    is listed again. -/
def doubled_specs : OpenRpc where
  methods := SUPPORTED_ETH_METHODS.map fun name => .Inline {
    name := if name = "eth_accounts" then "net_version" else name
    summary := none
    params := []
    result := none }
  components := none

theorem counts_right_doubled :
    CountsRight letters_inflector (TypeGenerator.new letters_inflector) doubled_specs where
  inline method hmethod := by
    obtain ⟨name, -, rfl⟩ := List.mem_map.mp hmethod
    exact ⟨_, rfl⟩
  count := by decide +kernel
  printable method hmethod := by
    have hmem := (mem_of_listed hmethod).1
    obtain ⟨r, hr, hmem⟩ := List.mem_flatMap.mp hmem
    obtain ⟨name, -, rfl⟩ := List.mem_map.mp hr
    obtain rfl := List.mem_singleton.mp hmem
    exact ⟨_, _, rfl⟩

/-- A method is left out, and another one has two signatures. -/
theorem net_version_twice :
    ∃ signatures g', (TypeGenerator.new letters_inflector).generate_rpc_methods letters_inflector
        doubled_specs = .ok (signatures, g') ∧
      (signatures.map (·.name)).count "eth_accounts" = 0 ∧
      (signatures.map (·.name)).count "net_version" = 2 ∧
      ¬ AllListed letters_inflector (TypeGenerator.new letters_inflector) doubled_specs := by
  obtain ⟨signatures, g', h⟩ := exists_generate_rpc_methods_iff.mpr counts_right_doubled
  have hnames := (names_of_signatures h).1
  have hmissing : (signatures.map (·.name)).count "eth_accounts" = 0 := by
    rw [hnames]
    decide +kernel
  refine ⟨signatures, g', h, hmissing, ?_, ?_⟩
  · rw [hnames]
    decide +kernel
  · intro hall
    have hone := (hall signatures g' h).2.1 "eth_accounts" (by decide +kernel)
    omega

end Codegen

end EthRpc
