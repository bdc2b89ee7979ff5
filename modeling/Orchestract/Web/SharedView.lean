import Orchestract.Web.SharedPages

/-!
# What a reviewer sees

What `app/web/templates/share_view.html` reads of its context. The other responses of the public
pages show all they are made of.
-/

namespace Orchestract

set_option autoImplicit false

/-- The last version of a document, with the summary that is shown beside it. -/
structure SharedFile where
  versionId : Nat
  originalFilename : String
  sizeBytes : Nat
  createdAt : Nat
  contentType : String
  summary : Option String
deriving DecidableEq, Repr

structure SharedDocument where
  id : Nat
  name : String
  file : Option SharedFile
deriving DecidableEq, Repr

structure SharedView where
  token : String
  title : String
  description : Option String
  allowDownload : Bool
  expiresAt : Nat
  summary : Option String
  documents : List SharedDocument
deriving DecidableEq, Repr

/-- A response as it is seen. -/
inductive Seen where
  | view (status : Nat) (view : SharedView)
  | other (response : ShareResponse)
deriving DecidableEq, Repr

namespace SharedPages

def sharedDocument (document : Document) : SharedDocument :=
  ⟨document.id, document.name, document.latestVersion.map fun v =>
    ⟨v.id, v.originalFilename, v.sizeBytes, v.createdAt, v.contentType, document.summary.bind Text.orNone⟩⟩

def sharedView (token : String) (link : ShareLink) (contract : Contract) (documents : List Document) :
    SharedView :=
  ⟨token, contract.title, contract.description.bind Text.orNone, link.allowDownload, link.expiresAt,
    contract.summary.bind Text.orNone, documents.map sharedDocument⟩

end SharedPages

def ShareResponse.seen : ShareResponse → Seen
  | .page status (.view token link contract documents) =>
    .view status (SharedPages.sharedView token link contract documents)
  | response => .other response

end Orchestract
