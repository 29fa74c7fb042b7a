import TrafficSchema.Exchange.Decode

/-!
# What a flow is decoded from

A decoded flow has the parameters of a query, the shape of a request body, which is a JSON value or
an XML document, and the shape of a response body, which is an XML document, compressed or not
(`Exchange.sources_of_decode`). Where there is no query or no body, there is no field. So what holds
of the shapes of queries, of JSON values and of XML documents holds of decoded flows.
-/

namespace TrafficSchema

namespace Exchange

variable {config : Config} {limit : Nat} {body : ByteArray} {t : ShapeTree} {e : Exchange}

/-! ## Bodies -/

/-- A body that is taken as JSON is the text of a value. -/
theorem exists_value_of_jsonBody? (h : jsonBody? body = some t) :
    ∃ text value, String.fromUTF8? body = some text ∧ Json.Value.ofText text = .ok value ∧
      Shape.infer value = .tree t := by
  obtain ⟨text, htext, h⟩ := Option.bind_eq_some_iff.1 h
  split at h
  · rename_i value hvalue
    refine ⟨text, value, htext, hvalue, ?_⟩
    cases hshape : Shape.infer value with
    | scalar tag =>
      rw [hshape] at h
      cases h
    | tree c =>
      rw [hshape] at h
      cases h
      rfl
  · cases h

theorem shapeOf_of_xmlBody? (h : xmlBody? limit body = some t) :
    Xml.shapeOf limit body = .ok t := by
  unfold xmlBody? at h
  cases hshape : Xml.shapeOf limit body with
  | error fault =>
    rw [hshape] at h
    cases h
  | ok u =>
    rw [hshape] at h
    cases h
    rfl

/-- A request body is taken as JSON or as XML. -/
theorem body_of_requestShape? {content : ContentType × ShapeTree}
    (h : e.requestShape? limit = some content) :
    jsonBody? e.requestBody = some content.2 ∨
      Xml.shapeOf limit e.requestBody = .ok content.2 := by
  have hbody : jsonBody? e.requestBody = some content.2 ∨
      xmlBody? limit e.requestBody = some content.2 := by
    simp only [requestShape?] at h
    split at h
    · cases h
    · split at h
      all_goals
        obtain h | ⟨-, h⟩ := Option.or_eq_some_iff.1 h
        all_goals
          obtain ⟨t, ht, rfl⟩ := Option.map_eq_some_iff.1 h
          simp [ht]
  exact hbody.imp_right shapeOf_of_xmlBody?

/-- What a response body stands for: itself, or what was compressed in it. -/
def Carries (body bytes : ByteArray) : Prop := bytes = body ∨ inflateBody body = .ok bytes

/-- A response body is XML, or the bytes that it stands for are. -/
theorem body_of_responseShape {gzipped : Bool} (h : responseShape config body = .ok (t, gzipped)) :
    t = ∅ ∨ ∃ bytes, Carries body bytes ∧ Xml.shapeOf config.maxDepth bytes = .ok t := by
  unfold responseShape at h
  split at h
  · cases h
    exact .inl rfl
  · split at h
    · rename_i hshape
      cases h
      exact .inr ⟨body, .inl rfl, hshape⟩
    · cases h
    · split at h
      · split at h
        · cases h
        · rename_i bytes hbytes
          split at h
          · rename_i hshape
            cases h
            exact .inr ⟨bytes, .inr hbytes, hshape⟩
          · cases h
      · cases h

/-! ## Flows -/

/-- **What the shapes of a decoded flow come from.** -/
theorem sources_of_decode {f : Flow} (h : e.decode config = .ok f) :
    (f.queryParameters = ∅ ∨ ∃ query, f.queryParameters = Query.parse query) ∧
    (f.contentStructure = ∅ ∨ jsonBody? e.requestBody = some f.contentStructure ∨
      Xml.shapeOf config.maxDepth e.requestBody = .ok f.contentStructure) ∧
    f.contentParameters = f.contentStructure.leaves ∧
    (f.responseStructure = ∅ ∨ ∃ bytes, Carries e.responseBody bytes ∧
      Xml.shapeOf config.maxDepth bytes = .ok f.responseStructure) := by
  unfold decode at h
  split at h
  · cases h
  · rename_i target _
    split at h
    · cases h
    · rename_i hresponse
      cases h
      refine ⟨?_, ?_, rfl, body_of_responseShape hresponse⟩
      · cases target.query with
        | none => exact .inl rfl
        | some query => exact .inr ⟨query, rfl⟩
      · cases hcontent : e.requestShape? config.maxDepth with
        | none => exact .inl rfl
        | some content => exact .inr (body_of_requestShape? hcontent)

/-- **The content parameters of an exchange are the leaves of its content structure.** -/
theorem contentParameters_of_decode {f : Flow} (h : e.decode config = .ok f) :
    f.contentParameters = f.contentStructure.leaves := by
  obtain ⟨-, -, hparameters, -⟩ := sources_of_decode h
  exact hparameters

end Exchange

end TrafficSchema
