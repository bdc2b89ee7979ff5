import Orchestract.Documents.Places
import Orchestract.Documents.StorageKeys
import Orchestract.Domain.CanonicalSlugs
import Orchestract.Isolation.WriteIsolation
import Orchestract.Library.Walks
import Orchestract.Operations.Histories

/-!
# Paths of local uploads

`LocalFileStorage` of `app/infrastructure/storage/local.py`. A path is resolved by its text alone, as
where there are no symbolic links, and is the list of the names from the root directory on.
-/

namespace Orchestract

set_option autoImplicit false

open Walks (Beneath net walk)

/-- A `PurePosixPath`: empty parts and single dots are left out. -/
structure Path where
  absolute : Bool
  parts : List String
deriving DecidableEq, Repr

namespace Path

def partsOf (text : String) : List String :=
  ((text.toList.splitOn '/').map String.ofList).filter fun part => part ≠ "" ∧ part ≠ "."

def ofText (text : String) : Path := ⟨text.toList.head? = some '/', partsOf text⟩

/-- `path / key`. -/
def join (path : Path) (key : String) : Path :=
  if (ofText key).absolute then ofText key else ⟨path.absolute, path.parts ++ partsOf key⟩

def move (part : String) : Option String := if part = ".." then none else some part

/-- The names from the root directory on, for a process that works in `cwd`. -/
def names (cwd : String) (path : Path) : List String :=
  walk (if path.absolute then [] else walk [] ((partsOf cwd).map move)) (path.parts.map move)

/-- `resolve()`: the system refuses a name with a null character. -/
def resolve (cwd : String) (path : Path) : Except Failure (List String) :=
  if ∀ part ∈ path.parts, '\x00' ∉ part.toList then .ok (path.names cwd) else .error (.crashed .valueError)

/-- `path.parents` of a resolved path, the nearest one first. -/
def parents (path : List String) : List (List String) :=
  (List.range path.length).reverse.map fun n => path.take n

end Path

namespace LocalFileStorage

/-- `_path_for`. -/
def pathFor (cwd root key : String) : Except Failure (List String) := do
  let path ← ((Path.ofText root).join key).resolve cwd
  let top ← (Path.ofText root).resolve cwd
  if top ∉ Path.parents path ∧ path ≠ top then throw (.crashed .valueError)
  return path

end LocalFileStorage

/-- The path under which an object is written; the other backends write no path. -/
def Bucket.pathFor (cwd : String) (bucket : Bucket) (key : String) : Except Failure (Option (List String)) :=
  match bucket with
  | .disk root => some <$> LocalFileStorage.pathFor cwd root key
  | _ => .ok none

namespace DocumentService

/-- The path that `upload_version` writes. -/
def uploadPath (env : Env) (cwd : String) (documentId : Nat) (filename : String) :
    Query (Option (List String)) := do
  let (document, contract, _, bucket) ← uploadPlace env documentId
  bucket.pathFor cwd (storageKey contract document filename)

end DocumentService

/-! ## Parts -/

theorem exists_mem_splitOn_iff {α : Type} [BEq α] [LawfulBEq α] {a c : α} (h : c ≠ a) (xs : List α) :
    (∃ piece ∈ xs.splitOn a, c ∈ piece) ↔ c ∈ xs := by
  induction xs with
  | nil => simp
  | cons x xs ih =>
    rw [List.splitOn_cons_eq_if_modifyHead]
    by_cases hx : x = a
    · rw [if_pos (by simpa using hx), List.mem_cons, ← ih]
      simp [hx, h]
    · obtain ⟨piece, pieces, hpieces⟩ := List.exists_cons_of_ne_nil (List.splitOn_ne_nil a xs)
      rw [if_neg (by simpa using hx), List.mem_cons, ← ih, hpieces]
      simp [or_assoc]

namespace Path

theorem partsOf_slash (a b : String) : partsOf (a ++ "/" ++ b) = partsOf a ++ partsOf b := by
  have htext : (a ++ "/" ++ b).toList = a.toList ++ '/' :: b.toList := by
    rw [String.toList_append, String.toList_append, List.append_assoc]
    rfl
  unfold partsOf
  rw [htext, List.splitOn_append_cons_self, List.map_append, List.filter_append]

theorem partsOf_name {name : String} (hslash : '/' ∉ name.toList) (hname : name ≠ "") (hdot : name ≠ ".") :
    partsOf name = [name] := by
  unfold partsOf
  rw [List.splitOn_eq_singleton hslash, List.map_singleton, String.ofList_toList]
  exact List.filter_cons_of_pos (by simp [hname, hdot])

/-- A character that is no slash or dot stands in a part. -/
theorem exists_mem_partsOf_iff {c : Char} (hslash : c ≠ '/') (hdot : c ≠ '.') (text : String) :
    (∃ part ∈ partsOf text, c ∈ part.toList) ↔ c ∈ text.toList := by
  rw [← exists_mem_splitOn_iff hslash]
  unfold partsOf
  constructor
  · intro ⟨part, hpart, hc⟩
    obtain ⟨piece, hpiece, rfl⟩ := List.mem_map.mp (List.mem_of_mem_filter hpart)
    exact ⟨piece, hpiece, by simpa using hc⟩
  · intro ⟨piece, hpiece, hc⟩
    refine ⟨String.ofList piece, List.mem_filter.mpr ⟨List.mem_map_of_mem hpiece, ?_⟩, by simpa using hc⟩
    have hne : String.ofList piece ≠ "" := by
      intro heq
      rw [← String.toList_inj, String.toList_ofList] at heq
      rw [heq] at hc
      cases hc
    have hnot : String.ofList piece ≠ "." := by
      intro heq
      rw [← String.toList_inj, String.toList_ofList] at heq
      rw [heq] at hc
      exact hdot (List.mem_singleton.mp hc)
    simp [hne, hnot]

theorem names_append (cwd : String) (absolute : Bool) (parts parts' : List String) :
    names cwd ⟨absolute, parts ++ parts'⟩ = walk (names cwd ⟨absolute, parts⟩) (parts'.map move) := by
  unfold names
  rw [List.map_append, Walks.walk_append]

theorem walk_names {folder key : List String} (h : ".." ∉ key) : walk folder (key.map move) = folder ++ key := by
  have hmoves : key.map move = key.map some := by
    apply List.map_congr_left
    intro part hpart
    unfold move
    rw [if_neg fun heq : part = ".." => h (heq ▸ hpart)]
  rw [hmoves, Walks.walk_down]

theorem mem_parents_iff {top path : List String} : top ∈ parents path ↔ Beneath top path := by
  simp only [parents, List.mem_map, List.mem_reverse, List.mem_range]
  constructor
  · intro ⟨n, hn, htop⟩
    refine ⟨path.drop n, ?_, ?_⟩
    · intro hnil
      have hlength := List.drop_eq_nil_iff.mp hnil
      omega
    · rw [← htop, List.take_append_drop]
  · intro ⟨below, hne, hpath⟩
    refine ⟨top.length, ?_, ?_⟩
    · have hpos := List.length_pos_of_ne_nil hne
      rw [hpath, List.length_append]
      omega
    · rw [hpath, List.take_left]

theorem null_parts_iff {text : String} :
    (∀ part ∈ partsOf text, '\x00' ∉ part.toList) ↔ '\x00' ∉ text.toList := by
  rw [← exists_mem_partsOf_iff (by decide) (by decide) text]
  simp

theorem resolve_ofText (cwd : String) {text : String} (h : '\x00' ∉ text.toList) :
    (ofText text).resolve cwd = .ok ((ofText text).names cwd) :=
  if_pos (null_parts_iff.mpr h)

end Path

namespace LocalFileStorage

/-- The names of a key: relative, and without a name that climbs. -/
structure Descends (key : String) : Prop where
  relative : key.toList.head? ≠ some '/'
  parts : ".." ∉ Path.partsOf key ∧ Path.partsOf key ≠ []
  null : '\x00' ∉ key.toList

variable {cwd root key : String}

theorem join_eq (hkey : Descends key) :
    (Path.ofText root).join key = ⟨(Path.ofText root).absolute, Path.partsOf root ++ Path.partsOf key⟩ := by
  unfold Path.join
  rw [if_neg]
  · rfl
  · intro habsolute
    exact hkey.relative (of_decide_eq_true habsolute)

/-- A key that only descends is refused only for a null character in the root. -/
theorem pathFor_eq (hkey : Descends key) : pathFor cwd root key =
    if '\x00' ∈ root.toList then .error (.crashed .valueError)
    else .ok ((Path.ofText root).names cwd ++ Path.partsOf key) := by
  have hnames : Path.names cwd ⟨(Path.ofText root).absolute, Path.partsOf root ++ Path.partsOf key⟩ =
      (Path.ofText root).names cwd ++ Path.partsOf key := by
    rw [Path.names_append, Path.walk_names hkey.parts.1]
    rfl
  unfold pathFor
  rw [join_eq hkey]
  by_cases hnull : '\x00' ∈ root.toList
  · have hrefused : Path.resolve cwd
        ⟨(Path.ofText root).absolute, Path.partsOf root ++ Path.partsOf key⟩ =
        .error (.crashed .valueError) := by
      refine if_neg fun hall => ?_
      exact Path.null_parts_iff.mp (fun part hpart => hall part (List.mem_append_left _ hpart)) hnull
    rw [if_pos hnull, hrefused]
    rfl
  · have hresolved : Path.resolve cwd
        ⟨(Path.ofText root).absolute, Path.partsOf root ++ Path.partsOf key⟩ =
        .ok ((Path.ofText root).names cwd ++ Path.partsOf key) := by
      rw [← hnames]
      refine if_pos fun part hpart => ?_
      rcases List.mem_append.mp hpart with hpart | hpart
      · exact Path.null_parts_iff.mpr hnull part hpart
      · exact Path.null_parts_iff.mpr hkey.null part hpart
    have hbelow : Beneath ((Path.ofText root).names cwd) ((Path.ofText root).names cwd ++ Path.partsOf key) :=
      ⟨_, hkey.parts.2, rfl⟩
    rw [if_neg hnull, hresolved, Path.resolve_ofText cwd hnull]
    dsimp only [bind, Except.bind]
    rw [if_neg fun h => h.1 (Path.mem_parents_iff.mpr hbelow)]
    rfl

end LocalFileStorage

/-! ## The keys of uploads -/

namespace DocumentService

/-- The names in the key of an upload. -/
def keyNames (contract : Contract) (document : Document) (filename : String) : List String :=
  [s!"org-{contract.organizationId}", s!"contract-{contract.id}", s!"doc-{document.id}",
    s!"v{document.currentVersionNo + 1}-{safeFilename filename}"]

theorem mem_safeFilename {filename : String} {c : Char} (h : c ∈ (safeFilename filename).toList) :
    isFilenameChar c = true := by
  unfold safeFilename at h
  dsimp only at h
  split at h
  · exact List.all_eq_true.mp (by decide) c h
  · rw [String.toList_ofList] at h
    obtain ⟨d, _, rfl⟩ := List.mem_map.mp ((Text.stripBy_sublist _ _).subset h)
    split
    · assumption
    · decide

theorem mem_toDigits {n : Nat} {c : Char} (h : c ∈ Nat.toDigits 10 n) : isFilenameChar c = true := by
  have hdigit : c.isDigit = true := Nat.isDigit_of_mem_toDigits (by decide) (by decide) h
  have hrange : ('0' ≤ c && c ≤ '9') = true := hdigit
  unfold isFilenameChar
  simp [hrange]

/-- A name of plain characters that does not start with a dot. -/
structure PlainName (name : String) : Prop where
  chars : ∀ c ∈ name.toList, isFilenameChar c = true
  head : ∃ c, name.toList.head? = some c ∧ c ≠ '.'

/-- A word, a numeral, and then plain characters. -/
theorem plainName_numbered {name : String} (word : String) (n : Nat) (rest : List Char)
    (hname : name.toList = word.toList ++ (Nat.toDigits 10 n ++ rest))
    (hword : word.toList.all isFilenameChar = true)
    (hfirst : ∃ c, word.toList.head? = some c ∧ c ≠ '.') (hrest : ∀ c ∈ rest, isFilenameChar c = true) :
    PlainName name := by
  refine ⟨fun c hc => ?_, ?_⟩
  · rw [hname, List.mem_append, List.mem_append] at hc
    rcases hc with hc | hc | hc
    · exact List.all_eq_true.mp hword c hc
    · exact mem_toDigits hc
    · exact hrest c hc
  · obtain ⟨c, hc, hdot⟩ := hfirst
    exact ⟨c, by rw [hname, List.head?_append, hc]; rfl, hdot⟩

theorem plain_keyNames (contract : Contract) (document : Document) (filename : String) :
    ∀ name ∈ keyNames contract document filename, PlainName name := by
  intro name hname
  simp only [keyNames, List.mem_cons, List.not_mem_nil, or_false] at hname
  rcases hname with rfl | rfl | rfl | rfl
  · exact plainName_numbered "org-" contract.organizationId [] (by simp [toString, String.toList_append])
      (by decide) ⟨'o', by decide⟩ nofun
  · exact plainName_numbered "contract-" contract.id [] (by simp [toString, String.toList_append])
      (by decide) ⟨'c', by decide⟩ nofun
  · exact plainName_numbered "doc-" document.id [] (by simp [toString, String.toList_append])
      (by decide) ⟨'d', by decide⟩ nofun
  · refine plainName_numbered "v" (document.currentVersionNo + 1) ('-' :: (safeFilename filename).toList)
      (by simp [toString, String.toList_append]) (by decide) ⟨'v', by decide⟩ fun c hc => ?_
    rcases List.mem_cons.mp hc with rfl | hc
    · decide
    · exact mem_safeFilename hc

theorem PlainName.ne {name : String} (h : PlainName name) : name ≠ "" ∧ name ≠ "." ∧ name ≠ ".." := by
  obtain ⟨c, hc, hdot⟩ := h.head
  refine ⟨?_, ?_, ?_⟩
  · rintro rfl
    cases hc
  · rintro rfl
    exact hdot (Option.some.inj hc).symm
  · rintro rfl
    exact hdot (Option.some.inj hc).symm

theorem PlainName.not_mem {name : String} (h : PlainName name) {c : Char} (hc : isFilenameChar c = false) :
    c ∉ name.toList := by
  intro hmem
  rw [h.chars c hmem] at hc
  cases hc

theorem PlainName.partsOf {name : String} (h : PlainName name) : Path.partsOf name = [name] :=
  Path.partsOf_name (h.not_mem (by decide)) h.ne.1 h.ne.2.1

theorem storageKey_eq (contract : Contract) (document : Document) (filename : String) :
    storageKey contract document filename = s!"org-{contract.organizationId}" ++ "/" ++
      s!"contract-{contract.id}" ++ "/" ++ s!"doc-{document.id}" ++ "/" ++
        s!"v{document.currentVersionNo + 1}-{safeFilename filename}" := by
  apply String.toList_inj.mp
  rw [storageKey_toList]
  simp [toString, String.toList_append]

theorem partsOf_storageKey (contract : Contract) (document : Document) (filename : String) :
    Path.partsOf (storageKey contract document filename) = keyNames contract document filename := by
  have hplain := plain_keyNames contract document filename
  rw [storageKey_eq, Path.partsOf_slash, Path.partsOf_slash, Path.partsOf_slash,
    (hplain _ (by simp [keyNames])).partsOf, (hplain _ (by simp [keyNames])).partsOf,
    (hplain _ (by simp [keyNames])).partsOf, (hplain _ (by simp [keyNames])).partsOf]
  rfl

theorem descends_storageKey (contract : Contract) (document : Document) (filename : String) :
    LocalFileStorage.Descends (storageKey contract document filename) := by
  have hplain := plain_keyNames contract document filename
  refine ⟨?_, ⟨?_, ?_⟩, ?_⟩
  · rw [storageKey_toList]
    nofun
  · rw [partsOf_storageKey]
    exact fun hmem => (hplain _ hmem).ne.2.2 rfl
  · rw [partsOf_storageKey]
    exact List.cons_ne_nil _ _
  · rw [← Path.null_parts_iff, partsOf_storageKey]
    exact fun name hname => (hplain name hname).not_mem (by decide)

end DocumentService

/-! ## The storage root -/

section

open Orchestract.Path (move names ofText partsOf)

variable {cwd storageRoot keyPrefix : String} {key : List String}

/-- The folders of the storage root that the prefix of a connection leaves. Below an empty root the
prefix starts at the root directory. -/
def leftFolders (cwd storageRoot keyPrefix : String) : List String :=
  let root := (ofText storageRoot).names cwd
  if storageRoot = "" then root else root.drop (root.length - (net ((partsOf keyPrefix).map move)).1)

/-- The prefix stays in the storage root, or leaves it and comes back to it by name. -/
structure StaysInside (cwd storageRoot keyPrefix : String) (key : List String) : Prop where
  rootText : '\x00' ∉ storageRoot.toList
  prefixText : '\x00' ∉ keyPrefix.toList
  returns : Beneath (leftFolders cwd storageRoot keyPrefix) ((net ((partsOf keyPrefix).map move)).2 ++ key)

theorem names_under (cwd storageRoot keyPrefix : String) :
    (ofText (storageRoot ++ "/" ++ keyPrefix)).names cwd =
      walk (if storageRoot = "" then [] else (ofText storageRoot).names cwd) ((partsOf keyPrefix).map move) := by
  have hparts : ofText (storageRoot ++ "/" ++ keyPrefix) =
      ⟨(storageRoot ++ "/" ++ keyPrefix).toList.head? = some '/', partsOf storageRoot ++ partsOf keyPrefix⟩ := by
    unfold ofText
    rw [Path.partsOf_slash]
  rw [hparts, Path.names_append]
  by_cases hroot : storageRoot = ""
  · have hhead : (storageRoot ++ "/" ++ keyPrefix).toList.head? = some '/' := by
      simp [hroot, String.toList_append]
    rw [if_pos hroot, hhead, hroot]
    rfl
  · have hhead : (storageRoot ++ "/" ++ keyPrefix).toList.head? = storageRoot.toList.head? := by
      have hne : storageRoot.toList ≠ [] := fun hnil => hroot (String.toList_inj.mp hnil)
      obtain ⟨c, cs, hcs⟩ := List.exists_cons_of_ne_nil hne
      rw [String.toList_append, String.toList_append, hcs]
      rfl
    rw [if_neg hroot, hhead]
    rfl

theorem beneath_under_iff : Beneath ((ofText storageRoot).names cwd)
      ((ofText (storageRoot ++ "/" ++ keyPrefix)).names cwd ++ key) ↔
    Beneath (leftFolders cwd storageRoot keyPrefix) ((net ((partsOf keyPrefix).map move)).2 ++ key) := by
  rw [names_under]
  unfold leftFolders
  by_cases hroot : storageRoot = ""
  · rw [if_pos hroot, Walks.walk_eq]
    simp [hroot]
  · rw [if_neg hroot]
    simp only [if_neg hroot]
    exact Walks.beneath_walk_iff

end

namespace DocumentService

theorem uploadPath_eq {env : Env} {cwd : String} {documentId : Nat} {filename : String} {w : World}
    {document : Document} {contract : Contract} {connection : StorageConnection}
    (h : uploadTarget documentId w = .ok (document, contract, connection))
    (hlocal : connection.provider = .local) : uploadPath env cwd documentId filename w =
      Bucket.pathFor cwd (.disk (env.settings.localStorageRoot ++ "/" ++ connection.config.keyPrefix.getD ""))
        (storageKey contract document filename) := by
  have hbuild : buildFileStorage env connection (connection.credential.getD .empty) w =
      .ok (.disk (env.settings.localStorageRoot ++ "/" ++ connection.config.keyPrefix.getD "")) := by
    unfold buildFileStorage
    rw [hlocal]
    rfl
  unfold uploadPath
  rw [Read.bind_ok (uploadPlace_iff.mpr ⟨h, hbuild⟩)]
  rfl

/-- An upload through a local connection writes beneath the storage root exactly when the prefix of the
connection stays inside, and then its key is not refused. -/
theorem uploadPath_beneath_iff (env : Env) (cwd : String) (filename : String) {documentId : Nat} {w : World}
    {document : Document} {contract : Contract} {connection : StorageConnection}
    (h : uploadTarget documentId w = .ok (document, contract, connection))
    (hlocal : connection.provider = .local) :
    (∃ path, uploadPath env cwd documentId filename w = .ok (some path) ∧
      Beneath ((Path.ofText env.settings.localStorageRoot).names cwd) path) ↔
    StaysInside cwd env.settings.localStorageRoot (connection.config.keyPrefix.getD "")
      (keyNames contract document filename) := by
  rw [uploadPath_eq h hlocal, Bucket.pathFor, LocalFileStorage.pathFor_eq (descends_storageKey contract document filename),
    partsOf_storageKey]
  have hnull : '\x00' ∈ (env.settings.localStorageRoot ++ "/" ++ connection.config.keyPrefix.getD "").toList ↔
      '\x00' ∈ env.settings.localStorageRoot.toList ∨ '\x00' ∈ (connection.config.keyPrefix.getD "").toList := by
    simp [String.toList_append]
  by_cases htext : '\x00' ∈ (env.settings.localStorageRoot ++ "/" ++ connection.config.keyPrefix.getD "").toList
  · rw [if_pos htext]
    refine iff_of_false (fun ⟨path, hpath, _⟩ => ?_) fun hinside => ?_
    · cases hpath
    · rcases hnull.mp htext with hroot | hstart
      · exact hinside.rootText hroot
      · exact hinside.prefixText hstart
  · rw [if_neg htext]
    obtain ⟨hroot, hstart⟩ := not_or.mp (mt hnull.mpr htext)
    constructor
    · intro ⟨path, hpath, hbeneath⟩
      obtain rfl := Option.some.inj (Except.ok.inj hpath)
      exact ⟨hroot, hstart, beneath_under_iff.mp hbeneath⟩
    · intro hinside
      exact ⟨_, rfl, beneath_under_iff.mpr hinside.returns⟩

theorem staysInside_of_net {cwd storageRoot keyPrefix : String} {key : List String}
    (hroot : storageRoot ≠ "") (hrootText : '\x00' ∉ storageRoot.toList) (hstart : '\x00' ∉ keyPrefix.toList)
    (hnet : (net ((Path.partsOf keyPrefix).map Path.move)).1 = 0) (hkey : key ≠ []) :
    StaysInside cwd storageRoot keyPrefix key := by
  refine ⟨hrootText, hstart, beneath_under_iff.mp ?_⟩
  rw [names_under, if_neg hroot]
  exact Walks.beneath_of_net hnet hkey

theorem isFilenameChar_of_isSlugChar {c : Char} (h : Text.isSlugChar c = true) : isFilenameChar c = true := by
  unfold isFilenameChar
  rcases Bool.or_eq_true_iff.mp h with hletter | hdigit
  · simp [hletter]
  · simp [hdigit]

theorem plainName_slugify (name : String) : PlainName (Text.slugify name) := by
  have hmem := Text.slugify_mem name
  constructor
  · intro c hc
    rcases Text.isSlugChar_or_dash hmem hc with hslug | rfl
    · exact isFilenameChar_of_isSlugChar hslug
    · decide
  · obtain ⟨c, hhead, hslug⟩ := Text.head_slug hmem
    refine ⟨c, hhead, ?_⟩
    rintro rfl
    exact absurd hslug (by decide)

/-- The prefix that the connection form gives a local connection, the slug of an organization, stays
inside. -/
theorem staysInside_slug {cwd storageRoot : String} {key : List String} (hroot : storageRoot ≠ "")
    (hrootText : '\x00' ∉ storageRoot.toList) (name : String) (hkey : key ≠ []) :
    StaysInside cwd storageRoot (Text.slugify name) key := by
  have hplain := plainName_slugify name
  refine staysInside_of_net hroot hrootText (hplain.not_mem (by decide)) ?_ hkey
  rw [hplain.partsOf, List.map_singleton, Path.move, if_neg hplain.ne.2.2]
  rfl

/-- Acme connects a disk with this prefix and drafts a lease. -/
def diskWorld (keyPrefix : String) : World :=
  (System.after (fun _ _ => none) (List.map (fun operation => .call ⟨.offline 1 "", operation⟩) [
    .register "Acme" "Alice" "alice@acme.test" "secret" none none, .createAgent 1 "Legal" none,
    .createDefinition 1 "Leases" none, .addStep 1 ⟨"sign", "Sign", none, 1, true, true⟩, .activate 1,
    .connectBucket 1 .local "Disk" ⟨some keyPrefix, none, none, none⟩ .empty,
    .createContract 1 "Lease" "Lease" 1 "Alice" none])).world

theorem uploadPath_beneath_iff_slug :
    ∃ path, uploadPath (.offline 1 "") "/app" 1 "lease.pdf" (diskWorld "acme") = .ok (some path) ∧
      Beneath ((Path.ofText "storage").names "/app") path := by
  have htarget : (uploadTarget 1 (diskWorld "acme")).toOption.map (fun target =>
      (target.2.2.provider, target.2.2.config.keyPrefix)) = some (.local, some "acme") := by decide +kernel
  obtain ⟨⟨document, contract, connection⟩, hsome, hconnection⟩ := Option.map_eq_some_iff.mp htarget
  obtain ⟨hlocal, hstart⟩ := Prod.mk.inj hconnection
  have hok : uploadTarget 1 (diskWorld "acme") = .ok (document, contract, connection) := by
    cases hrun : uploadTarget 1 (diskWorld "acme") with
    | ok target =>
      rw [hrun] at hsome
      exact congrArg Except.ok (Option.some.inj hsome)
    | error e =>
      rw [hrun] at hsome
      cases hsome
  apply (uploadPath_beneath_iff (.offline 1 "") "/app" "lease.pdf" hok hlocal).mpr
  rw [show connection.config.keyPrefix = some "acme" from hstart]
  have hleft : leftFolders "/app" (Env.offline 1 "").settings.localStorageRoot ((some "acme").getD "") = [] := by
    decide +kernel
  refine ⟨by decide, by decide, ?_⟩
  rw [hleft]
  exact ⟨_, by simp [keyNames], rfl⟩

/-- A prefix that climbs takes the uploads out of the storage root; one with a null character makes
them fail. -/
theorem not_uploadPath_beneath :
    (¬ ∃ path, uploadPath (.offline 1 "") "/app" 1 "lease.pdf" (diskWorld "..") = .ok (some path) ∧
      Beneath ((Path.ofText "storage").names "/app") path) ∧
    uploadPath (.offline 1 "") "/app" 1 "lease.pdf" (diskWorld "\x00") = .error (.crashed .valueError) := by
  have hpath : uploadPath (.offline 1 "") "/app" 1 "lease.pdf" (diskWorld "..") =
      .ok (some ["app", "org-1", "contract-1", "doc-1", "v1-lease.pdf"]) := by decide +kernel
  have hroot : (Path.ofText "storage").names "/app" = ["app", "storage"] := by decide +kernel
  refine ⟨?_, by decide +kernel⟩
  intro ⟨path, hok, below, _, hbelow⟩
  rw [hpath] at hok
  obtain rfl := Option.some.inj (Except.ok.inj hok)
  rw [hroot] at hbelow
  have hsecond := congrArg (fun names : List String => names[1]?) hbelow
  simp at hsecond

end DocumentService

end Orchestract
