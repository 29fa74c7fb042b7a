import Mathlib.Data.List.DropRight
import TrafficSchema.Proofs.Fold
import TrafficSchema.Proofs.Generator.Closed

/-!
# Versions of endpoints

Endpoints with the same name, apart from the version, are versions of one endpoint. A client gets
those with the greatest version (`GeneratorInput.mem_latest_iff`), so every name is kept. It is kept
once unless several endpoints tie for its latest version (`GeneratorInput.latest_oncePerName`):
names that differ in spelling can have both the name and the version in common.

The version is the number at the end of the name (`Naming.trailingNumber`), but a number beyond
`Naming.maxVersion` counts as version one. An endpoint whose number is so great is dropped in favour
of smaller ones just if some other version of it has a number that fits and is greater than one
(`GeneratorInput.latest_atLeast_iff`).
-/

namespace TrafficSchema

/-! ## The number at the end of a name -/

namespace Naming

/-- The value of all digits at the end of a name, or one if there are none. -/
def trailingNumber (name : String) : ℕ :=
  let digits := name.toList.rtakeWhile Char.isDigit
  if digits = [] then 1 else digitsValue digits

/-- A name is cut in front of the digits at its end. Their number is the version if it fits. -/
theorem endpointVersion_eq (name : String) :
    endpointVersion name = (String.ofList (name.toList.rdropWhile Char.isDigit),
      if trailingNumber name ≤ maxVersion then trailingNumber name else 1) := by
  have hcut : Text.dropEndWhile Char.isDigit name.toList =
      name.toList.rdropWhile Char.isDigit := rfl
  have hdigits : name.toList.drop (name.toList.rdropWhile Char.isDigit).length =
      name.toList.rtakeWhile Char.isDigit := by
    have hdrop : (name.toList.rdropWhile Char.isDigit ++ name.toList.rtakeWhile Char.isDigit).drop
        (name.toList.rdropWhile Char.isDigit).length = name.toList.rtakeWhile Char.isDigit :=
      List.drop_left
    rwa [List.rdropWhile_append_rtakeWhile] at hdrop
  simp only [endpointVersion, hcut, hdigits, trailingNumber, Prod.mk.injEq, true_and]
  have hone : 1 ≤ maxVersion := by decide
  by_cases hnil : name.toList.rtakeWhile Char.isDigit = []
  · simp [hnil, hone]
  · simp only [hnil, false_or, if_false]
    split_ifs with hlt hle <;> omega

end Naming

/-! ## The latest version -/

namespace GeneratorInput

open Naming

section Latest

variable {endpoints : List EndpointData} {d e : EndpointData}

/-- Whether no other version of an endpoint is greater. -/
def IsLatest (endpoints : List EndpointData) (e : EndpointData) : Prop :=
  ∀ d ∈ endpoints, d.unversionedIdentifier = e.unversionedIdentifier → d.version ≤ e.version

instance : Decidable (IsLatest endpoints e) :=
  inferInstanceAs (Decidable (∀ d ∈ endpoints, _ → _))

theorem get?_latestVersions (endpoints : List EndpointData) (key : String) :
    (latestVersions endpoints).get? key = reduce? (· ⊔ ·)
      ((endpoints.filter (·.unversionedIdentifier = key)).map (·.version)) := by
  -- the versions are recorded from the left, so the last endpoint is taken off first
  induction endpoints using List.reverseRecOn with
  | nil => rfl
  | append_singleton endpoints e ih =>
    rw [latestVersions, List.foldl_append, List.foldl_cons, List.foldl_nil, ← latestVersions,
      Dict.get?_upsert, List.filter_append, List.map_append, reduce?_append, ← ih]
    by_cases hkey : key = e.unversionedIdentifier
    · subst hkey
      cases (latestVersions endpoints).get? e.unversionedIdentifier <;> simp
    · simp [hkey, Ne.symm hkey]

/-- The version that is recorded for the name of an endpoint is the greatest of its versions. -/
theorem exists_get?_latestVersions (he : e ∈ endpoints) :
    ∃ version, (latestVersions endpoints).get? e.unversionedIdentifier = some version ∧
      IsGreatest {n | ∃ d ∈ endpoints, d.unversionedIdentifier = e.unversionedIdentifier ∧
        d.version = n} version := by
  rw [get?_latestVersions]
  have hversions (n : ℕ) : n ∈ (endpoints.filter (·.unversionedIdentifier =
      e.unversionedIdentifier)).map (·.version) ↔ ∃ d ∈ endpoints,
        d.unversionedIdentifier = e.unversionedIdentifier ∧ d.version = n := by
    simp [and_assoc]
  generalize (endpoints.filter (·.unversionedIdentifier =
    e.unversionedIdentifier)).map (·.version) = versions at hversions ⊢
  cases versions with
  | nil => cases (hversions e.version).2 ⟨e, he, rfl, rfl⟩
  | cons n versions =>
    refine ⟨_, reduce?_cons n versions, ?_⟩
    simp only [← hversions]
    exact isGreatest_foldl_sup n versions

/-- **Kept are the latest versions.** -/
theorem mem_latest_iff : e ∈ latest endpoints ↔ e ∈ endpoints ∧ IsLatest endpoints e := by
  simp only [latest, List.mem_filter, decide_eq_true_eq]
  refine and_congr_right fun he => ?_
  obtain ⟨version, hget, ⟨f, hf, hname, hversion⟩, hge⟩ := exists_get?_latestVersions he
  rw [hget, Option.some.injEq]
  constructor
  · rintro rfl d hd hname
    exact hge ⟨d, hd, hname, rfl⟩
  · intro hlatest
    refine le_antisymm ?_ (hge ⟨e, he, rfl, rfl⟩)
    rw [← hversion]
    exact hlatest f hf hname

/-- Every endpoint has a latest version. -/
theorem exists_mem_latest (he : e ∈ endpoints) : ∃ d ∈ latest endpoints,
    d.unversionedIdentifier = e.unversionedIdentifier ∧ e.version ≤ d.version := by
  obtain ⟨version, -, ⟨d, hd, hname, hversion⟩, hge⟩ := exists_get?_latestVersions he
  have hlatest : IsLatest endpoints d := by
    intro f hf hfd
    rw [hversion]
    exact hge ⟨f, hf, hfd.trans hname, rfl⟩
  exact ⟨d, mem_latest_iff.2 ⟨hd, hlatest⟩, hname, hlatest e he hname.symm⟩

/-- Whether two endpoints are of one name and have the same version, which is the latest. -/
def Ties (endpoints : List EndpointData) (d e : EndpointData) : Prop :=
  d.unversionedIdentifier = e.unversionedIdentifier ∧ d.version = e.version ∧
    IsLatest endpoints d

instance : Decidable (Ties endpoints d e) := inferInstanceAs (Decidable (_ ∧ _ ∧ _))

/-- Names are kept once just if no two endpoints tie. -/
theorem nodup_latest_iff : ((latest endpoints).map (·.unversionedIdentifier)).Nodup ↔
    endpoints.Pairwise fun d e => ¬ Ties endpoints d e := by
  rw [List.Nodup, List.pairwise_map, latest, List.pairwise_filter]
  refine List.Pairwise.iff_of_mem fun {d e} hd he => ?_
  have hkept {f : EndpointData} (hf : f ∈ endpoints) :
      decide ((latestVersions endpoints).get? f.unversionedIdentifier = some f.version) = true ↔
        IsLatest endpoints f := by
    have hmem : f ∈ latest endpoints ↔ _ := List.mem_filter
    rw [mem_latest_iff, and_congr_right_iff] at hmem
    exact (hmem hf).symm
  rw [hkept hd, hkept he]
  constructor
  · rintro hne ⟨hname, hversion, hlatest⟩
    refine hne hlatest (fun f hf hfe => ?_) hname
    rw [← hversion]
    exact hlatest f hf (hfe.trans hname.symm)
  · intro htie hd' he' hname
    exact htie ⟨hname, le_antisymm (he' d hd hname) (hd' e he hname.symm), hd'⟩

end Latest

end GeneratorInput

/-! ## Services -/

/-- A schema of one service that knows no more of its endpoints than their names. -/
def Schema.ofNames (service : String) (endpoints : List String) : Schema :=
  endpoints.foldl (fun s endpoint => s.insertFlow { service, endpoint }) {}

namespace GeneratorInput

open Naming

section Services

variable {s : Schema} {cacheable : CacheableEndpoints} {service : ServiceData} {e : EndpointData}

theorem endpoints_eq_latest (h : service ∈ (ofSchema s cacheable).services) :
    service.endpoints = latest service.rawEndpoints := by
  obtain ⟨name, flows, -, rfl⟩ := exists_flows_of_mem_services h
  rfl

/-- The name and the version of an endpoint are read off its name. -/
theorem endpointVersion_of_mem (h : service ∈ (ofSchema s cacheable).services)
    (he : e ∈ service.rawEndpoints) :
    endpointVersion e.name = (e.unversionedName, e.version) := by
  obtain ⟨endpoint, f, -, rfl⟩ := exists_flow_of_mem_endpointsOf h (List.mem_append_left _ he)
  rfl

/-- **Which names a client gets once.** The endpoints of a service are its latest versions, in
order; each name is among them, and just once if no two endpoints tie. -/
theorem latest_oncePerName (h : service ∈ (ofSchema s cacheable).services) :
    service.endpoints.Sublist service.rawEndpoints ∧
    (∀ e ∈ service.rawEndpoints, ∃ d ∈ service.endpoints,
      d.unversionedIdentifier = e.unversionedIdentifier) ∧
    (∀ e, e ∈ service.endpoints ↔
      e ∈ service.rawEndpoints ∧ IsLatest service.rawEndpoints e) ∧
    ((service.endpoints.map (·.unversionedIdentifier)).Nodup ↔
      service.rawEndpoints.Pairwise fun d e => ¬ Ties service.rawEndpoints d e) := by
  rw [endpoints_eq_latest h]
  refine ⟨List.filter_sublist, fun e he => ?_, fun e => mem_latest_iff, nodup_latest_iff⟩
  obtain ⟨d, hd, hname, -⟩ := exists_mem_latest he
  exact ⟨d, hd, hname⟩

theorem latest_oncePerName_list : ∃ service,
    service ∈ (ofSchema (.ofNames "Items" ["List", "List2", "Show"]) ∅).services ∧
    (service.rawEndpoints.Pairwise fun d e => ¬ Ties service.rawEndpoints d e) ∧
    (service.endpoints.map (·.unversionedIdentifier)).Nodup ∧
    service.endpoints.map (·.name) = ["List2", "Show"] := by
  have hservice : ∃ service ∈
      (ofSchema (.ofNames "Items" ["List", "List2", "Show"]) ∅).services,
        (service.rawEndpoints.Pairwise fun d e => ¬ Ties service.rawEndpoints d e) ∧
        service.endpoints.map (·.name) = ["List2", "Show"] := by decide +kernel
  obtain ⟨service, h, hties, hnames⟩ := hservice
  exact ⟨service, h, hties, (latest_oncePerName h).2.2.2.2 hties, hnames⟩

/-- **A name can be kept twice**: a name without a number has version one, like the name with the
number one. -/
theorem not_nodup_list : ¬ ∀ (s : Schema) (cacheable : CacheableEndpoints),
    ∀ service ∈ (ofSchema s cacheable).services,
      service.endpoints.Sublist service.rawEndpoints ∧
      (service.endpoints.map (·.unversionedIdentifier)).Nodup ∧
      ∀ e ∈ service.rawEndpoints, ∃ d ∈ service.endpoints,
        d.unversionedIdentifier = e.unversionedIdentifier := by
  intro h
  have htwice : ∃ service ∈
      (ofSchema (.ofNames "Items" ["List", "List1"]) ∅).services,
        ¬ (service.endpoints.map (·.unversionedIdentifier)).Nodup := by decide +kernel
  obtain ⟨service, hservice, htwice⟩ := htwice
  exact htwice (h _ _ service hservice).2.1

/-- The version of an endpoint is its number, or one if the number is too great. -/
theorem version_of_mem (h : service ∈ (ofSchema s cacheable).services)
    (he : e ∈ service.rawEndpoints) :
    e.version = if trailingNumber e.name ≤ maxVersion then trailingNumber e.name else 1 := by
  have hversion := endpointVersion_of_mem h he
  rw [endpointVersion_eq, Prod.mk.injEq] at hversion
  exact hversion.2.symm

/-- **When no newer version is dropped.** Some version with at least the number of an endpoint is
kept, unless this number is beyond the greatest version while another number of the same name is
not, and is greater than one. -/
theorem latest_atLeast_iff (h : service ∈ (ofSchema s cacheable).services)
    (he : e ∈ service.rawEndpoints) :
    (∃ d ∈ service.endpoints, d.unversionedIdentifier = e.unversionedIdentifier ∧
      trailingNumber e.name ≤ trailingNumber d.name) ↔
    trailingNumber e.name ≤ maxVersion ∨
      ∀ d ∈ service.rawEndpoints, d.unversionedIdentifier = e.unversionedIdentifier →
        trailingNumber d.name ≤ maxVersion → trailingNumber d.name ≤ 1 := by
  have hversion (d : EndpointData) (hd : d ∈ service.rawEndpoints) :
      d.version = if trailingNumber d.name ≤ maxVersion then trailingNumber d.name else 1 :=
    version_of_mem h hd
  rw [endpoints_eq_latest h]
  constructor
  · rintro ⟨d, hd, hname, hle⟩
    rw [or_iff_not_imp_left]
    intro hbeyond f hf hfe hfits
    obtain ⟨hd, hlatest⟩ := mem_latest_iff.1 hd
    have hfd := hlatest f hf (hfe.trans hname.symm)
    rw [hversion f hf, hversion d hd, if_pos hfits, if_neg (by omega)] at hfd
    exact hfd
  · rintro hcases
    by_cases hfits : trailingNumber e.name ≤ maxVersion
    · obtain ⟨d, hd, hname, hle⟩ := exists_mem_latest he
      refine ⟨d, hd, hname, ?_⟩
      rw [hversion e he, hversion d (mem_latest_iff.1 hd).1, if_pos hfits] at hle
      split_ifs at hle <;> omega
    · -- all versions of the endpoint are at most one, as its own is
      have hsmall := hcases.resolve_left hfits
      refine ⟨e, mem_latest_iff.2 ⟨he, fun d hd hname => ?_⟩, rfl, le_rfl⟩
      rw [hversion e he, hversion d hd, if_neg hfits]
      split_ifs with hd'
      · exact hsmall d hd hname hd'
      · exact le_rfl

/-- A number that is too great does no harm to a name without other numbers. -/
theorem latest_atLeast_iff_show : ∃ service e,
    service ∈ (ofSchema (.ofNames "Items"
      ["List2", "Show", "Show20240131093000"]) ∅).services ∧
    e ∈ service.rawEndpoints ∧ trailingNumber e.name = 20240131093000 ∧
    ∃ d ∈ service.endpoints, d.unversionedIdentifier = e.unversionedIdentifier ∧
      trailingNumber e.name ≤ trailingNumber d.name := by
  have hservice : ∃ service ∈ (ofSchema (.ofNames "Items"
      ["List2", "Show", "Show20240131093000"]) ∅).services,
        ∃ e ∈ service.rawEndpoints, trailingNumber e.name = 20240131093000 ∧
          ∀ d ∈ service.rawEndpoints, d.unversionedIdentifier = e.unversionedIdentifier →
            trailingNumber d.name ≤ maxVersion → trailingNumber d.name ≤ 1 := by decide +kernel
  obtain ⟨service, h, e, he, hnumber, hsmall⟩ := hservice
  exact ⟨service, e, h, he, hnumber, (latest_atLeast_iff h he).2 (.inr hsmall)⟩

/-- **A newer version can be dropped**: a time of fourteen digits is beyond the greatest version, so
that the second version counts as newer. -/
theorem not_latest_atLeast_list : ¬ ∀ (s : Schema) (cacheable : CacheableEndpoints),
    ∀ service ∈ (ofSchema s cacheable).services, ∀ e ∈ service.rawEndpoints,
      ∃ d ∈ service.endpoints, d.unversionedIdentifier = e.unversionedIdentifier ∧
        trailingNumber e.name ≤ trailingNumber d.name := by
  intro h
  have hdropped : ∃ service ∈ (ofSchema (.ofNames "Items"
      ["List2", "List20240131093000"]) ∅).services,
        ∃ e ∈ service.rawEndpoints, ∀ d ∈ service.endpoints,
          trailingNumber d.name < trailingNumber e.name := by decide +kernel
  obtain ⟨service, hservice, e, he, hdropped⟩ := hdropped
  obtain ⟨d, hd, -, hle⟩ := h _ _ service hservice e he
  exact absurd hle (not_le.2 (hdropped d hd))

end Services

end GeneratorInput

end TrafficSchema
