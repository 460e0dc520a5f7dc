import SchemaClasses.Proofs.Flatten.Followed
import SchemaClasses.Proofs.Inline.Aliases

/-!
# Flattening what has been inlined

Main statement (`flatten_inlined_ne_invalidRef`): a document that has come from inlining is never
refused by the walk for a reference that leads nowhere. Inlining has checked the references in the
documents that they come from, before it moved them; that they lead to values of the combined
document is `isDirect_of_inline`, and that the walk meets no others is
`flattenWithin_ne_invalidRef`.
-/

namespace SchemaClasses

/-- Whatever comes of inlining, flattening it does not fail for a reference that leads nowhere. -/
theorem flatten_inlined_ne_invalidRef {limit : Nat} {fetch : Fetch} {baseUri : String}
    {document out : Json} (hdocument : document.wellFormed)
    (hfetch : ∀ uri content, fetch uri = .ok content → content.wellFormed)
    (h : (inline limit fetch baseUri document).result = .ok out) (pointer : String)
    (reason : DeadEnd) :
    flatten out ≠ .error (.invalidRef pointer reason) ∧
      ∀ depth, flattenWithin depth out ≠ .error (.invalidRef pointer reason) := by
  obtain ⟨hwf, hdirect⟩ := isDirect_of_inline hdocument hfetch h
  have hrefs : ∀ place text, (place, text) ∈ out.refs →
      ∃ path, SchemaPath.ofPointer text = .ok path ∧ (out.at? path).isSome := by
    intro place text hmem
    obtain ⟨path, rfl, hsome, -⟩ := hdirect place text hmem
    exact ⟨path, path.ofPointer_toPointer, hsome⟩
  have hnever := Flatten.flattenWithin_ne_invalidRef hwf hrefs
  exact ⟨hnever _ pointer reason, fun depth => hnever depth pointer reason⟩

/-- A document with references into a combiner, one member of which stands in another document. -/
def quarterBase : Json :=
  .obj [("properties", .obj [
    ("first", .obj [(refKey, .str "#/properties/middle/allOf/1")]),
    ("middle", .obj [("allOf", .arr [
      .obj [(refKey, .str "b#/x")],
      .obj [("properties", .obj [("n", .obj [(refKey, .str "#/properties/last")])])]])]),
    ("last", .obj [("properties", .obj [("m", .obj [(refKey, .str "b#/y")])])])])]

/-- A source of one document, whose reference goes into the combiner as well. -/
def quarterFetch : Fetch := fun uri =>
  if uri.toText = "file:///b" then
    .ok (.obj [("x", .obj [("anyOf", .arr [.obj [(refKey, .str "#/y")]])]),
      ("y", .obj [("properties", .obj [("o", .obj [(typeKey, .str "string")])])])])
  else .error (.fileNotFound uri.toText)

/-- A document that inlining puts together from two, with a reference through a combiner, is
flattened without a dangling reference. -/
theorem flatten_inlined_quarter : quarterBase.wellFormed ∧
    (∀ uri content, quarterFetch uri = .ok content → content.wellFormed) ∧
    ∃ out, (inline 2 quarterFetch "file:///a" quarterBase).result = .ok out ∧
      (flatten out).toOption.map (fun schemas => (Assoc.keys schemas).map SchemaPath.toPointer) =
        some ["#/remote/schema0/y", "#/properties/last", "#/properties/middle/allOf/1",
          "#/properties/middle", "#"] ∧
      ∀ pointer reason, flatten out ≠ .error (.invalidRef pointer reason) ∧
        ∀ depth, flattenWithin depth out ≠ .error (.invalidRef pointer reason) := by
  have hbase : quarterBase.wellFormed := by decide
  have hfetch : ∀ uri content, quarterFetch uri = .ok content → content.wellFormed := by
    intro uri content h
    unfold quarterFetch at h
    split_ifs at h
    obtain rfl := Except.ok.inj h
    decide
  have hkeys : (inline 2 quarterFetch "file:///a" quarterBase).result.toOption.bind (fun out =>
      (flatten out).toOption.map fun schemas => (Assoc.keys schemas).map SchemaPath.toPointer) =
        some ["#/remote/schema0/y", "#/properties/last", "#/properties/middle/allOf/1",
          "#/properties/middle", "#"] := by decide +kernel
  cases h : (inline 2 quarterFetch "file:///a" quarterBase).result with
  | error error =>
    rw [h] at hkeys
    cases hkeys
  | ok out =>
    rw [h] at hkeys
    exact ⟨hbase, hfetch, out, rfl, hkeys, flatten_inlined_ne_invalidRef hbase hfetch h⟩

end SchemaClasses
