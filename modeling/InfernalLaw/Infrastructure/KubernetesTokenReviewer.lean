import InfernalLaw.Infrastructure.EnrollmentRepository
import InfernalLaw.Kernel.Text

/-!
# The reviewer of workload tokens

`KubernetesTokenReviewer`, which asks the `TokenReview` API of the cluster whose token it is given.
The API answers with a user name and a list of extra attributes, and `parse_review` reads the
workload out of them.
-/

namespace InfernalLaw

open Postgres (bind_eq_ok elim_eq_ok)

/-! ## Messages -/

/-- `TokenReviewSpec`. -/
structure TokenReviewSpec where
  token : Str
  audiences : List Str
  deriving DecidableEq

/-- `TokenReviewRequest`. -/
structure TokenReviewRequest where
  apiVersion : Str
  kind : Str
  spec : TokenReviewSpec
  deriving DecidableEq

/-- `TokenReviewUser`, with the map of its extra attributes. -/
structure TokenReviewUser where
  username : Str
  uid : Str
  extra : Str → Option (List Str)

/-- `TokenReviewStatus`. -/
structure TokenReviewStatus where
  authenticated : Bool
  audiences : List Str
  user : Option TokenReviewUser

/-- `TokenReviewResponse`. -/
structure TokenReviewResponse where
  status : Option TokenReviewStatus

/-- What comes back over HTTP: whether the status is a success, and the body, if it can be read. -/
structure TokenReviewReply where
  success : Bool
  review : Option TokenReviewResponse

/-! ## Parsing -/

/-- What the name of a service account's user starts with. -/
def serviceAccountPrefix : Str := "system:serviceaccount:".toList

/-- The key of the pod's name. -/
def podNameKey : Str := "authentication.kubernetes.io/pod-name".toList

/-- The key of the pod's identifier. -/
def podUidKey : Str := "authentication.kubernetes.io/pod-uid".toList

/-- What is there, or a token that is rejected. -/
def orRejected {β : Type} (x : Option β) : Except EnrollmentError β :=
  x.elim (.error .tokenRejected) .ok

/-- `single_extra`. -/
def singleExtra (extra : Str → Option (List Str)) (key : Str) : Except EnrollmentError Str := do
  let values ← orRejected (extra key)
  match values with
  | [value] => .ok value
  | _ => .error .tokenRejected

/-- `parse_review`. -/
def parseReview (review : TokenReviewResponse) (audience : Str) :
    Except EnrollmentError VerifiedWorkload := do
  let status ← orRejected review.status
  if status.authenticated = false then .error .tokenRejected
  else if audience ∉ status.audiences then .error .audienceMismatch
  else
    let user ← orRejected status.user
    let account ← orRejected (Str.stripPrefix user.username serviceAccountPrefix)
    let (workloadNamespace, serviceAccount) ← orRejected (Str.splitOnce [':'] account)
    let podName ← singleExtra user.extra podNameKey
    let podUid ← singleExtra user.extra podUidKey
    VerifiedWorkload.new workloadNamespace serviceAccount user.uid podName podUid status.audiences

/-! ## The reviewer -/

/-- What the reviewer takes from the process's environment, the file system and `reqwest`. Errors of
these are texts. -/
structure ReviewerEnvironment where
  /-- `env::var`. -/
  var : String → Option Str
  /-- `fs::read_to_string`. -/
  readToString : Str → Except String Str
  /-- `fs::read`. -/
  read : Str → Except String (List UInt8)
  /-- `Certificate::from_pem`. -/
  validCertificate : List UInt8 → Except String Unit
  /-- A client that trusts the certificate. -/
  build : List UInt8 → Except String Unit
  /-- What comes back from an endpoint for a request with a bearer token, if anything does. -/
  send : Str → Str → TokenReviewRequest → Option TokenReviewReply

/-- `KubernetesTokenReviewer`. -/
structure KubernetesTokenReviewer where
  endpoint : Str
  reviewerToken : Str

/-- `configuration_error`. -/
def configurationError (label error : String) : EnrollmentError :=
  .repository (.kernel s!"Kubernetes {label} configuration failed: {error}")

namespace KubernetesTokenReviewer

/-- `KubernetesTokenReviewer::new`. -/
def new (env : ReviewerEnvironment) (apiUrl tokenPath caPath : Str) :
    Except EnrollmentError KubernetesTokenReviewer := do
  let reviewerToken ← (env.readToString tokenPath).mapError (configurationError "reviewer token")
  if reviewerToken.trim = [] then .error (configurationError "reviewer token" "file is empty")
  else
    let ca ← (env.read caPath).mapError (configurationError "cluster CA")
    let _ ← (env.validCertificate ca).mapError (configurationError "cluster CA")
    let _ ← (env.build ca).mapError (configurationError "HTTP client")
    return {
      endpoint := apiUrl.rdropWhile (· == '/') ++
        "/apis/authentication.k8s.io/v1/tokenreviews".toList
      reviewerToken := reviewerToken.trim }

/-- `KubernetesTokenReviewer::from_env`. -/
def fromEnv (env : ReviewerEnvironment) : Except EnrollmentError KubernetesTokenReviewer :=
  new env ((env.var "KUBERNETES_API_URL").getD "https://kubernetes.default.svc".toList)
    ((env.var "KUBERNETES_REVIEWER_TOKEN_PATH").getD
      "/var/run/secrets/infernal-law-kubernetes/token".toList)
    ((env.var "KUBERNETES_CA_PATH").getD "/var/run/secrets/infernal-law-kubernetes/ca.crt".toList)

/-- What is sent for a token. -/
def request (token audience : Str) : TokenReviewRequest where
  apiVersion := "authentication.k8s.io/v1".toList
  kind := "TokenReview".toList
  spec := { token, audiences := [audience] }

/-- `review`. -/
def review (env : ReviewerEnvironment) (reviewer : KubernetesTokenReviewer) :
    WorkloadTokenReviewer :=
  fun token audience => do
    let response ← orRejected
      (env.send reviewer.endpoint reviewer.reviewerToken (request token audience))
    if response.success = false then .error .tokenRejected
    else
      let review ← orRejected response.review
      parseReview review audience

end KubernetesTokenReviewer

end InfernalLaw
