import ProjectClient.Http.Resource
import ProjectClient.Proofs.Url.Path

/-! Where the address of a project leads. Ids come from the server and may be any text. -/
namespace ProjectClient

namespace Url

def visible (id : String) : List Char :=
  id.toList.filter fun c => c != '\t' && c != '\n' && c != '\r'

inductive Destination where
  | collection
  | parent
  | item (id : String)
deriving DecidableEq

def Destination.ofId (id : String) : Destination :=
  if id = "." ∨ id = ".." then .collection
  else if visible id = ['.', '.'] then .parent
  else if visible id = ['.'] then .item ""
  else .item (String.ofList (visible id))

def Destination.segments : Destination → List String
  | .collection => ["projects"]
  | .parent => [""]
  | .item id => ["projects", percentEncode inSegmentSet id.toList]

def IsPlain (id : String) : Prop :=
  id ≠ "." ∧ id ≠ ".." ∧ ∀ c ∈ id.toList, c ∉ ['\t', '\n', '\r']

/-- The URL is that of the collection with one more segment, and this decodes to the id. No
character in it ends it, and it is not worked off when the URL is read again. -/
def Addresses (collection url : Url) (id : String) : Prop :=
  ∃ segment : String,
    url = { collection with path := collection.path ++ [segment] } ∧
    url.text = collection.text ++ "/" ++ segment ∧
    (∀ c ∈ ['/', '\\', '?', '#'], c ∉ segment.toList) ∧
    Path.isHere segment = false ∧ Path.isUp segment = false ∧
    Text.ofUtf8? (percentDecode segment.toList) = some id

variable {base : Url} {id : String}

theorem Destination.ofId_cases (id : String) :
    (id = "." ∨ id = "..") ∧ ofId id = .collection ∨
    ¬ (id = "." ∨ id = "..") ∧
      (visible id = ['.', '.'] ∧ ofId id = .parent ∨
        visible id = ['.'] ∧ ofId id = .item "" ∨
        visible id ≠ ['.', '.'] ∧ visible id ≠ ['.'] ∧
          ofId id = .item (String.ofList (visible id))) := by
  unfold ofId
  by_cases dots : id = "." ∨ id = ".."
  · exact .inl ⟨dots, if_pos dots⟩
  rw [if_neg dots]
  refine .inr ⟨dots, ?_⟩
  by_cases up : visible id = ['.', '.']
  · exact .inl ⟨up, if_pos up⟩
  rw [if_neg up]
  by_cases here : visible id = ['.']
  · exact .inr (.inl ⟨here, if_pos here⟩)
  · exact .inr (.inr ⟨up, here, if_neg here⟩)

theorem isOrdinary_projects : Path.IsOrdinary "api" ∧ Path.IsOrdinary "projects" := by
  have written : ∀ c ∈ "api".toList ++ "projects".toList,
      inPathSet c = false ∧ Path.isSeparator c = false :=
    List.forall_iff_forall_mem.1 (by decide)
  obtain ⟨api, projects⟩ := List.forall_mem_append.1 written
  constructor
  · exact ⟨api, by simp [Path.isHere, ← String.toList_inj],
      by simp [Path.isUp, ← String.toList_inj]⟩
  · exact ⟨projects, by simp [Path.isHere, ← String.toList_inj],
      by simp [Path.isUp, ← String.toList_inj]⟩

theorem projects_path (base : Url) :
    base.projects.path = base.path.dropLast ++ ["api", "projects"] := by
  obtain ⟨api, last⟩ := isOrdinary_projects
  have read : (Text.splitOn Path.isSeparator "api/projects".toList).map (percentEncode inPathSet) =
      ["api", "projects"] := by decide
  have path : base.projects.path =
      Path.finish (Path.push base.path.dropLast "api") "projects" := by
    simp only [projects, join, Path.resolve, read]
    rfl
  rw [path, Path.push_of_ordinary api.notUp api.notHere,
    Path.finish_of_ordinary last.notUp last.notHere, List.append_assoc, List.singleton_append]

theorem projects_eq (base : Url) :
    base.projects = { base with path := base.path.dropLast ++ ["api", "projects"] } := by
  rw [← projects_path]
  rfl

section PushSegment

variable {url : Url} {directory : List String} {name : String}

theorem pushSegment_of_dots (path : url.path = directory ++ [name]) (named : name ≠ "")
    (dots : id = "." ∨ id = "..") : url.pushSegment id = url := by
  have last : url.path.getLast? ≠ some "" := by simpa [path] using named
  have occupied : url.path ≠ [] := by simp [path]
  simp only [pushSegment, if_neg last, if_pos dots, if_neg occupied]

theorem pushSegment_of_not_dots (path : url.path = directory ++ [name]) (named : name ≠ "")
    (notDots : ¬ (id = "." ∨ id = "..")) :
    url.pushSegment id =
      { url with path := Path.finish url.path (percentEncode inSegmentSet (visible id)) } := by
  have last : url.path.getLast? ≠ some "" := by simpa [path] using named
  simp only [pushSegment, if_neg last, if_neg notDots, visible]

end PushSegment

theorem text_with_path (url : Url) (path : List String) :
    { url with path := path }.text =
      url.scheme.text ++ "://" ++ url.userinfo.text ++ url.authority ++ Path.text path := rfl

theorem text_append_segment (url : Url) (segment : String) :
    { url with path := url.path ++ [segment] }.text = url.text ++ "/" ++ segment := by
  have single : Path.text [segment] = "/" ++ segment := by simp [Path.text]
  rw [text_with_path, Path.text_append, single, ← String.append_assoc, ← String.append_assoc]
  rfl

/-- The address of an id has the path of its destination, and the rest from the collection. -/
theorem project_eq (base : Url) (id : String) :
    base.projects.project id =
      { base with path := base.path.dropLast ++ "api" :: (Destination.ofId id).segments } := by
  have path : base.projects.path = (base.path.dropLast ++ ["api"]) ++ ["projects"] := by
    rw [projects_path, List.append_assoc, List.singleton_append]
  unfold project
  rcases Destination.ofId_cases id with
    ⟨dots, leads⟩ | ⟨notDots, ⟨up, leads⟩ | ⟨here, leads⟩ | ⟨notUp, notHere, leads⟩⟩ <;> rw [leads]
  · rw [pushSegment_of_dots path (by decide) dots]
    exact projects_eq base
  · rw [pushSegment_of_not_dots path (by decide) notDots, path,
      Path.finish_of_isUp (Path.isUp_percentEncode.2 up) (by decide), List.append_assoc]
    rfl
  · have notUp : visible id ≠ ['.', '.'] := by simp [here]
    rw [pushSegment_of_not_dots path (by decide) notDots, path,
      Path.finish_of_isHere (Path.isUp_percentEncode_eq_false notUp)
        (Path.isHere_percentEncode.2 here),
      List.append_assoc, List.append_assoc]
    rfl
  · rw [pushSegment_of_not_dots path (by decide) notDots, path,
      Path.finish_of_ordinary (Path.isUp_percentEncode_eq_false notUp)
        (Path.isHere_percentEncode_eq_false notHere),
      List.append_assoc, List.append_assoc, Destination.segments, String.toList_ofList]
    rfl

theorem visible_eq_self_iff :
    visible id = id.toList ↔ ∀ c ∈ id.toList, c ∉ ['\t', '\n', '\r'] := by
  simp [visible, List.filter_eq_self, and_assoc]

namespace Destination

theorem ofId_eq_collection_iff : ofId id = .collection ↔ id = "." ∨ id = ".." := by
  rcases ofId_cases id with ⟨dots, h⟩ | ⟨notDots, ⟨_, h⟩ | ⟨_, h⟩ | ⟨_, _, h⟩⟩ <;> rw [h]
  · exact iff_of_true rfl dots
  all_goals exact iff_of_false nofun notDots

theorem ofId_eq_parent_iff : ofId id = .parent ↔ id ≠ ".." ∧ visible id = ['.', '.'] := by
  rcases ofId_cases id with ⟨dots, h⟩ | ⟨notDots, ⟨up, h⟩ | ⟨here, h⟩ | ⟨notUp, _, h⟩⟩ <;> rw [h]
  · refine iff_of_false nofun ?_
    rintro ⟨ne, up⟩
    rcases dots with rfl | rfl
    · exact absurd up (by decide)
    · exact ne rfl
  · exact iff_of_true rfl ⟨fun same => notDots (.inr same), up⟩
  · exact iff_of_false nofun fun above => absurd (here.symm.trans above.2) (by decide)
  · exact iff_of_false nofun fun above => notUp above.2

theorem ne_dots_of_ofId {name : String} (leads : ofId id = .item name) :
    name.toList ≠ ['.'] ∧ name.toList ≠ ['.', '.'] := by
  rcases ofId_cases id with ⟨_, h⟩ | ⟨_, ⟨_, h⟩ | ⟨_, h⟩ | ⟨notUp, notHere, h⟩⟩ <;>
    cases h.symm.trans leads
  · exact ⟨nofun, nofun⟩
  · rw [String.toList_ofList]
    exact ⟨notHere, notUp⟩

theorem ofId_eq_item_iff : ofId id = .item id ↔ IsPlain id := by
  constructor
  · intro leads
    obtain ⟨notHere, notUp⟩ := ne_dots_of_ofId leads
    have whole : visible id = id.toList := by
      rcases ofId_cases id with ⟨_, h⟩ | ⟨_, ⟨_, h⟩ | ⟨here, h⟩ | ⟨_, _, h⟩⟩ <;>
        rw [leads] at h
      · cases h
      · cases h
      · cases h
        exact absurd here (by decide)
      · rw [← @String.toList_ofList (visible id), ← item.inj h]
    refine ⟨?_, ?_, visible_eq_self_iff.1 whole⟩
    · rintro rfl
      exact notHere rfl
    · rintro rfl
      exact notUp rfl
  · rintro ⟨ne_here, ne_up, plain⟩
    have whole := visible_eq_self_iff.2 plain
    have notHere : id.toList ≠ ['.'] := fun h => ne_here (String.toList_inj.1 h)
    have notUp : id.toList ≠ ['.', '.'] := fun h => ne_up (String.toList_inj.1 h)
    simp [ofId, whole, ne_here, ne_up, notHere, notUp]

theorem text_injective {destination other : Destination}
    (h : Path.text destination.segments = Path.text other.segments) : destination = other := by
  have chars := congrArg String.toList h
  -- The texts are `/projects`, `/` and `/projects/…`, so only two items need a look.
  cases destination <;> cases other <;> simp [segments, Path.text] at chars
  case item.item =>
    have encoded := percentEncode_injective (by decide) (String.toList_inj.1 chars)
    rw [String.toList_inj.1 encoded]
  all_goals rfl

end Destination

theorem path_project (base : Url) (id : String) :
    (base.projects.project id).path =
      base.path.dropLast ++ "api" :: (Destination.ofId id).segments := by
  rw [project_eq]

theorem project_eq_collection_iff :
    base.projects.project id = base.projects ↔ id = "." ∨ id = ".." := by
  rw [← Destination.ofId_eq_collection_iff, project_eq, projects_eq]
  constructor
  · intro h
    have path := congrArg Url.path h
    have segments : (Destination.ofId id).segments = ["projects"] := by simpa using path
    exact Destination.text_injective (congrArg Path.text segments)
  · intro h
    rw [h]
    rfl

theorem collection_prefix_iff :
    base.projects.path <+: (base.projects.project id).path ↔
      ¬ (id ≠ ".." ∧ visible id = ['.', '.']) := by
  rw [← Destination.ofId_eq_parent_iff, path_project, projects_path, List.prefix_append_right_inj]
  cases Destination.ofId id <;> simp [Destination.segments]

theorem project_text_eq_iff {other : String} :
    (base.projects.project id).text = (base.projects.project other).text ↔
      Destination.ofId id = Destination.ofId other := by
  constructor
  · intro h
    simp only [project_eq, text_with_path, Path.text_append, Path.text_cons,
      String.append_right_inj] at h
    exact Destination.text_injective h
  · intro h
    rw [project_eq, project_eq, h]

theorem addresses_project_iff {name : String} :
    base.projects.Addresses (base.projects.project id) name ↔
      Destination.ofId id = .item name := by
  constructor
  · rintro ⟨segment, url, -, -, -, -, decoded⟩
    have path := congrArg Url.path url
    rw [path_project, projects_path, List.append_assoc, List.append_cancel_left_eq] at path
    have segments : (Destination.ofId id).segments = ["projects", segment] :=
      List.tail_eq_of_cons_eq path
    cases destination : Destination.ofId id with
    | collection => simp [destination, Destination.segments] at segments
    | parent => simp [destination, Destination.segments] at segments
    | item leads =>
      rw [destination, Destination.segments] at segments
      simp only [List.cons.injEq, and_true, true_and] at segments
      rw [← segments, percentDecode_percentEncode (by decide), Text.ofUtf8?_flatMap,
        String.ofList_toList] at decoded
      rw [Option.some.inj decoded]
  · intro h
    obtain ⟨notHere, notUp⟩ := Destination.ne_dots_of_ofId h
    have url : base.projects.project id = { base.projects with
        path := base.projects.path ++ [percentEncode inSegmentSet name.toList] } := by
      rw [project_eq, h, projects_path, projects_eq, List.append_assoc]
      rfl
    refine ⟨percentEncode inSegmentSet name.toList, url, ?_, ?_, ?_, ?_, ?_⟩
    · rw [url, text_append_segment]
    · exact fun c ends => Path.notMem_percentEncode_of_ends ends
    · exact Path.isHere_percentEncode_eq_false notHere
    · exact Path.isUp_percentEncode_eq_false notUp
    · rw [percentDecode_percentEncode (by decide), Text.ofUtf8?_flatMap, String.ofList_toList]

end Url

namespace Http.Resource

variable {server : String} {idna : Url.Idna} {resource : Resource}

theorem collection_of_ofServer (accepted : ofServer server idna = .ok resource) :
    resource.collection = resource.base.projects := by
  unfold ofServer at accepted
  cases base : Url.ofServer server idna with
  | error e => simp [base, bind, Except.bind] at accepted
  | ok base =>
    simp only [base, bind, Except.bind, pure, Except.pure, Except.ok.injEq] at accepted
    rw [← accepted]

def ofHost : Resource where
  base := { scheme := .http, host := .domain "host", path := [""] }
  collection := { scheme := .http, host := .domain "host", path := ["api", "projects"] }

theorem ofServer_host : ofServer "http://host/" = .ok ofHost := by
  have scheme : Url.splitScheme? (Url.clean (Text.trim "http://host/")) =
      some ("http", "//host/".toList) := rfl
  have authority : Url.parseAuthority .asciiOnly "host/".toList =
      .ok ({}, .domain "host", none, ['/']) := rfl
  have path : Url.Path.resolve [] [] = [""] := by
    simp [Url.Path.resolve, Text.splitOn, Url.Path.finish, Url.Path.isUp, Url.Path.isHere,
      Url.percentEncode, ← String.toList_inj]
  have web : Url.parseWeb .asciiOnly .http "//host/".toList = .ok ofHost.base := by
    have slashes : "//host/".toList.dropWhile (fun c => c == '/' || c == '\\') =
        "host/".toList := rfl
    simp only [Url.parseWeb, slashes, authority]
    simp [bind, Except.bind, pure, Except.pure, path, ofHost]
  have base : Url.ofServer "http://host/" = .ok ofHost.base := by
    have parsed : Url.parse .asciiOnly (Text.trim "http://host/") = .ok ofHost.base := by
      simp only [Url.parse, scheme]
      exact web
    simp only [Url.ofServer, parsed]
    rfl
  have collection : ofHost.base.projects = ofHost.collection := Url.projects_eq _
  simp only [ofServer, base, bind, Except.bind, pure, Except.pure, collection]

/-- What a delete addresses, for a server by any address and an id of any text. It is the project
unless the id is `.` or `..` or has tabs or line breaks. Whatever the ids are, their addresses are
equal as far as their destinations are. -/
theorem delete_destination (accepted : ofServer server idna = .ok resource) :
    (∀ id, resource.collection.Addresses (resource.collection.project id) id ↔
      Url.IsPlain id) ∧
    (∀ id other, Url.IsPlain id → Url.IsPlain other →
      (resource.collection.project id).text = (resource.collection.project other).text →
      id = other) ∧
    (∀ id other,
      (resource.collection.project id).text = (resource.collection.project other).text ↔
        Url.Destination.ofId id = Url.Destination.ofId other) ∧
    (∀ id, resource.collection.project id = resource.collection ↔ id = "." ∨ id = "..") ∧
    (∀ id, resource.collection.path <+: (resource.collection.project id).path ↔
      ¬ (id ≠ ".." ∧ Url.visible id = ['.', '.'])) := by
  rw [collection_of_ofServer accepted]
  refine ⟨fun id => ?_, fun id other plain plain' same => ?_,
    fun id other => Url.project_text_eq_iff, fun id => Url.project_eq_collection_iff,
    fun id => Url.collection_prefix_iff⟩
  · rw [Url.addresses_project_iff, Url.Destination.ofId_eq_item_iff]
  · have own := Url.Destination.ofId_eq_item_iff.2 plain
    have theirs := Url.Destination.ofId_eq_item_iff.2 plain'
    have destinations := Url.project_text_eq_iff.1 same
    rw [own, theirs] at destinations
    exact Url.Destination.item.inj destinations

/-- An id with a blank and a slash gets a segment of its own, and one with a tab the address of
another project. -/
theorem delete_destination_of_host :
    ofServer "http://host/" = .ok ofHost ∧
    ofHost.collection.Addresses (ofHost.collection.project "a b/c") "a b/c" ∧
    (ofHost.collection.project "a\tb").text = (ofHost.collection.project "ab").text := by
  obtain ⟨addresses, -, same, -, -⟩ := delete_destination ofServer_host
  refine ⟨ofServer_host, (addresses "a b/c").2 (by simp [Url.IsPlain]), ?_⟩
  exact (same "a\tb" "ab").2 (by decide)

/-- A delete of the project `.` is sent to all projects. -/
theorem delete_of_point :
    ofServer "http://host/" = .ok ofHost ∧
    ofHost.request (.delete ".") = .to ofHost.collection .delete ∧
    ¬ ofHost.collection.Addresses (ofHost.collection.project ".") "." := by
  have collection : ofHost.collection = ofHost.base.projects := collection_of_ofServer ofServer_host
  have same : ofHost.collection.project "." = ofHost.collection := by
    rw [collection]
    exact Url.project_eq_collection_iff.2 (.inl rfl)
  refine ⟨ofServer_host, by rw [request, same], ?_⟩
  rw [collection, Url.addresses_project_iff]
  decide

end Http.Resource

end ProjectClient
