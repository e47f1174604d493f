import InfernalLaw.Http.ClaimActions
import InfernalLaw.Languages.Affixes

/-!
# Dispatch

How `dispatch` classifies the path and the method of a governed request, and to which handler it
comes with the request once it is admitted. The classification asks for the beginning and the end of
a path, and the dispatch takes them away one after the other, which is not the same where they
overlap.
-/

namespace InfernalLaw

/-! ## Classification -/

/-- `path.split('?').next()`. -/
def withoutQuery (path : Str) : Str := path.takeWhile (· ≠ '?')

/-- `is_claim_action_path`. -/
def isClaimActionPath (path : Str) : Bool :=
  path.startsWith "/v1/claims/".toList &&
    (path.endsWith "/renew".toList || path.endsWith "/release".toList ||
      path.endsWith "/complete".toList)

/-- `is_governed_route`. -/
def isGovernedRoute (path : Str) : Bool :=
  let path := withoutQuery path
  decide (path = "/v1/subscriptions".toList) || path.startsWith "/v1/subscriptions/".toList ||
    decide (path = "/v1/authority/schemas".toList) || decide (path = "/v1/requests".toList) ||
    path.startsWith "/v1/requests/".toList || decide (path = "/v1/routes/eligible".toList) ||
    (path.startsWith "/v1/routes/".toList && path.endsWith "/claims".toList) ||
    (path.startsWith "/v1/routes/".toList && path.endsWith "/request".toList) ||
    isClaimActionPath path || decide (path = "/v1/instances/renew".toList)

/-- `is_supported_governed_method`. -/
def isSupportedGovernedMethod (method path : Str) : Bool :=
  let path := withoutQuery path
  (decide (path = "/v1/subscriptions".toList) &&
      (decide (method = "GET".toList) || decide (method = "POST".toList))) ||
    (path.startsWith "/v1/subscriptions/".toList && decide (method = "DELETE".toList)) ||
    (decide (path = "/v1/authority/schemas".toList) && decide (method = "POST".toList)) ||
    (decide (path = "/v1/requests".toList) && decide (method = "POST".toList)) ||
    (path.startsWith "/v1/requests/".toList && decide (method = "GET".toList)) ||
    (decide (path = "/v1/routes/eligible".toList) && decide (method = "GET".toList)) ||
    (path.startsWith "/v1/routes/".toList && path.endsWith "/claims".toList &&
      decide (method = "POST".toList)) ||
    (path.startsWith "/v1/routes/".toList && path.endsWith "/request".toList &&
      decide (method = "GET".toList)) ||
    (isClaimActionPath path && decide (method = "POST".toList)) ||
    (decide (path = "/v1/instances/renew".toList) && decide (method = "POST".toList))

/-! ## Dispatch -/

/-- Where `request_route` comes to. -/
inductive RequestCall where
  | submitRequest
  | findRequest (id : Str)
  | methodNotAllowed
  | notFound
  deriving DecidableEq

/-- Where `subscription_route` comes to. -/
inductive SubscriptionCall where
  | createSubscription
  | listSubscriptions
  | disableSubscription (id : Str)
  | methodNotAllowed
  | notFound
  deriving DecidableEq

/-- Where `dispatch` comes to with an admitted request. -/
inductive GovernedCall where
  | publishSchema
  | listEligibleRoutes
  | claimRoute (routeId : Str)
  | findRoutedRequest (routeId : Str)
  | renewClaimRoute (claimId : Str)
  | releaseClaimRoute (claimId : Str)
  | completeClaimRoute (claimId : Str)
  | renewInstanceRoute
  /-- There is no policy evaluator. -/
  | unavailable
  | requestRoute (call : RequestCall)
  | subscriptionRoute (call : SubscriptionCall)
  deriving DecidableEq

/-- `request_route`. -/
def requestRoute (method path : Str) : RequestCall :=
  if withoutQuery path = "/v1/requests".toList then
    if method = "POST".toList then .submitRequest else .methodNotAllowed
  else
    (Str.stripPrefix (withoutQuery path) "/v1/requests/".toList).elim .notFound .findRequest

/-- `subscription_route`. -/
def subscriptionRoute (method path : Str) : SubscriptionCall :=
  if withoutQuery path = "/v1/subscriptions".toList then
    if method = "POST".toList then .createSubscription
    else if method = "GET".toList then .listSubscriptions
    else .methodNotAllowed
  else
    (Str.stripPrefix (withoutQuery path) "/v1/subscriptions/".toList).elim .notFound
      .disableSubscription

/-- What `dispatch` makes of the end of a path that begins with `/v1/claims/`. -/
def claimCall (rest : Str) : Option GovernedCall :=
  ((Str.stripSuffix rest "/renew".toList).map GovernedCall.renewClaimRoute).or
    (((Str.stripSuffix rest "/release".toList).map GovernedCall.releaseClaimRoute).or
      ((Str.stripSuffix rest "/complete".toList).map GovernedCall.completeClaimRoute))

/-- The identifier of a path that begins with `/v1/routes/`. -/
def routeIdBefore (final path : Str) : Option Str :=
  (Str.stripPrefix path "/v1/routes/".toList).bind fun rest => Str.stripSuffix rest final

/-- What `dispatch` does with an admitted request, when `policy_evaluator_from_env` answers an
authority or not. -/
def dispatchGoverned (authority : Bool) (method path : Str) : GovernedCall :=
  if withoutQuery path = "/v1/authority/schemas".toList then .publishSchema
  else if withoutQuery path = "/v1/routes/eligible".toList then .listEligibleRoutes
  else
    (((routeIdBefore "/claims".toList (withoutQuery path)).map GovernedCall.claimRoute).or
      (((routeIdBefore "/request".toList (withoutQuery path)).map GovernedCall.findRoutedRequest).or
        ((Str.stripPrefix (withoutQuery path) "/v1/claims/".toList).bind claimCall))).getD
    (if withoutQuery path = "/v1/instances/renew".toList then .renewInstanceRoute
    else if authority = false then .unavailable
    else if withoutQuery path = "/v1/requests".toList ∨
        (withoutQuery path).startsWith "/v1/requests/".toList then
      .requestRoute (requestRoute method path)
    else .subscriptionRoute (subscriptionRoute method path))

/-! ## What the patterns name -/

/-- The handler that a pattern of a method and a path names. -/
inductive Names : Str → Str → GovernedCall → Prop where
  | createSubscription : Names "POST".toList "/v1/subscriptions".toList
      (.subscriptionRoute .createSubscription)
  | listSubscriptions : Names "GET".toList "/v1/subscriptions".toList
      (.subscriptionRoute .listSubscriptions)
  | disableSubscription (id : Str) : Names "DELETE".toList ("/v1/subscriptions/".toList ++ id)
      (.subscriptionRoute (.disableSubscription id))
  | publishSchema : Names "POST".toList "/v1/authority/schemas".toList .publishSchema
  | submitRequest : Names "POST".toList "/v1/requests".toList (.requestRoute .submitRequest)
  | findRequest (id : Str) : Names "GET".toList ("/v1/requests/".toList ++ id)
      (.requestRoute (.findRequest id))
  | listEligibleRoutes : Names "GET".toList "/v1/routes/eligible".toList .listEligibleRoutes
  | claimRoute (id : Str) : Names "POST".toList ("/v1/routes/".toList ++ id ++ "/claims".toList)
      (.claimRoute id)
  | findRoutedRequest (id : Str) :
      Names "GET".toList ("/v1/routes/".toList ++ id ++ "/request".toList) (.findRoutedRequest id)
  | renewClaimRoute (id : Str) : Names "POST".toList ("/v1/claims/".toList ++ id ++ "/renew".toList)
      (.renewClaimRoute id)
  | releaseClaimRoute (id : Str) :
      Names "POST".toList ("/v1/claims/".toList ++ id ++ "/release".toList) (.releaseClaimRoute id)
  | completeClaimRoute (id : Str) :
      Names "POST".toList ("/v1/claims/".toList ++ id ++ "/complete".toList)
      (.completeClaimRoute id)
  | renewInstanceRoute : Names "POST".toList "/v1/instances/renew".toList .renewInstanceRoute

/-- The handler is given the authority to ask. -/
def GovernedCall.needsAuthority : GovernedCall → Bool
  | requestRoute _ => true
  | subscriptionRoute _ => true
  | _ => false

/-- The classification of a path and a method lets `dispatch` ask the gate. -/
structure Classified (method path : Str) : Prop where
  governed : isGovernedRoute path = true
  supported : isSupportedGovernedMethod method path = true

/-- The dispatch agrees with the classification: it comes to the handler that the pattern names, or,
for a handler that needs an authority, answers that there is none, and it comes to
`subscription_route` for the paths of subscriptions only. -/
structure Agrees (method path : Str) : Prop where
  handler : ∃ call, Names method (withoutQuery path) call ∧ ∀ authority,
    dispatchGoverned authority method path =
      if call.needsAuthority && !authority then .unavailable else call
  subscriptions : ∀ authority call, dispatchGoverned authority method path =
    .subscriptionRoute call → withoutQuery path = "/v1/subscriptions".toList ∨
      (withoutQuery path).startsWith "/v1/subscriptions/".toList = true

section

variable {authority : Bool} {method path id : Str}

/-- A text that begins with `pat` is not one that does not. -/
theorem append_ne_of_start {pat text : Str} (h : ¬ pat <+: text) (rest : Str) :
    pat ++ rest ≠ text := fun heq => h ⟨rest, heq⟩

/-- A text that does not end in a pattern is nothing with the pattern at its end. -/
theorem append_ne_of_final {pat text : Str} (h : ¬ pat <:+ text) (rest : Str) :
    rest ++ pat ≠ text := fun heq => h ⟨rest, heq⟩

/-- The identifier of a route's path is read back. -/
theorem routeIdBefore_append (final : Str) :
    routeIdBefore final ("/v1/routes/".toList ++ id ++ final) = some id := by
  rw [routeIdBefore, List.append_assoc, Str.stripPrefix_append, Option.bind_some,
    Str.stripSuffix_append]

/-- A path that does not begin with `/v1/routes/` has no identifier of a route. -/
theorem routeIdBefore_other {pat : Str} (final rest : Str)
    (h : ¬ "/v1/routes/".toList <+: pat) (h' : ¬ pat <+: "/v1/routes/".toList) :
    routeIdBefore final (pat ++ rest) = none := by
  rw [routeIdBefore, Str.stripPrefix_other h h', Option.bind_none]

/-- A path without its query has no query. -/
theorem withoutQuery_idem : withoutQuery (withoutQuery path) = withoutQuery path := by
  rw [withoutQuery, withoutQuery, List.takeWhile_idem]

/-- The query of a path has no say in where `dispatch` comes to. -/
theorem dispatchGoverned_withoutQuery :
    dispatchGoverned authority method path = dispatchGoverned authority method
      (withoutQuery path) := by
  simp only [dispatchGoverned, requestRoute, subscriptionRoute, withoutQuery_idem]

/-- The claims of a route go to `claim_route`. -/
theorem dispatchGoverned_claimRoute
    (h : withoutQuery path = "/v1/routes/".toList ++ id ++ "/claims".toList) :
    dispatchGoverned authority method path = .claimRoute id := by
  have hschemas : withoutQuery path ≠ "/v1/authority/schemas".toList := by
    rw [h, List.append_assoc]
    exact append_ne_of_start (by decide) _
  have heligible : withoutQuery path ≠ "/v1/routes/eligible".toList := by
    rw [h]
    exact append_ne_of_final (by decide) _
  rw [dispatchGoverned, if_neg hschemas, if_neg heligible, h, routeIdBefore_append]
  rfl

/-- The request of a route goes to `find_routed_request`. -/
theorem dispatchGoverned_findRoutedRequest
    (h : withoutQuery path = "/v1/routes/".toList ++ id ++ "/request".toList) :
    dispatchGoverned authority method path = .findRoutedRequest id := by
  have hschemas : withoutQuery path ≠ "/v1/authority/schemas".toList := by
    rw [h, List.append_assoc]
    exact append_ne_of_start (by decide) _
  have heligible : withoutQuery path ≠ "/v1/routes/eligible".toList := by
    rw [h]
    exact append_ne_of_final (by decide) _
  have hclaims : routeIdBefore "/claims".toList (withoutQuery path) = none := by
    rw [h, routeIdBefore, List.append_assoc, Str.stripPrefix_append, Option.bind_some,
      Str.stripSuffix_other (by decide) (by decide)]
  rw [dispatchGoverned, if_neg hschemas, if_neg heligible, hclaims, h, routeIdBefore_append]
  rfl

/-- A path with another beginning passes the branches of `dispatch` for schemas and routes. -/
theorem dispatchGoverned_other {pat rest : Str} (h : withoutQuery path = pat ++ rest)
    (hschemas : ¬ pat <+: "/v1/authority/schemas".toList)
    (heligible : ¬ pat <+: "/v1/routes/eligible".toList) (hroutes : ¬ "/v1/routes/".toList <+: pat)
    (hroutes' : ¬ pat <+: "/v1/routes/".toList)
    (hinstances : ¬ pat <+: "/v1/instances/renew".toList) :
    dispatchGoverned authority method path =
      ((Str.stripPrefix (withoutQuery path) "/v1/claims/".toList).bind claimCall).getD
        (if authority = false then .unavailable
        else if withoutQuery path = "/v1/requests".toList ∨
            (withoutQuery path).startsWith "/v1/requests/".toList then
          .requestRoute (requestRoute method path)
        else .subscriptionRoute (subscriptionRoute method path)) := by
  rw [dispatchGoverned, h, if_neg (append_ne_of_start hschemas rest),
    if_neg (append_ne_of_start heligible rest),
    if_neg (append_ne_of_start hinstances rest), routeIdBefore_other _ rest hroutes hroutes',
    routeIdBefore_other _ rest hroutes hroutes', Option.map_none, Option.map_none, Option.none_or,
    Option.none_or]

/-- A claim's path that ends in `/renew` is a renewal. -/
theorem claimCall_renew : claimCall (id ++ "/renew".toList) = some (.renewClaimRoute id) := by
  rw [claimCall, Str.stripSuffix_append, Option.map_some, Option.some_or]

/-- One that ends in `/release` is a release. -/
theorem claimCall_release : claimCall (id ++ "/release".toList) = some (.releaseClaimRoute id) := by
  rw [claimCall, Str.stripSuffix_other (by decide) (by decide), Str.stripSuffix_append,
    Option.map_none, Option.none_or, Option.map_some, Option.some_or]

/-- One that ends in `/complete` is a completion. -/
theorem claimCall_complete :
    claimCall (id ++ "/complete".toList) = some (.completeClaimRoute id) := by
  rw [claimCall, Str.stripSuffix_other (by decide) (by decide),
    Str.stripSuffix_other (by decide) (by decide), Str.stripSuffix_append, Option.map_none,
    Option.none_or, Option.map_none, Option.none_or, Option.map_some]

/-- An action on a claim goes to its handler. -/
theorem dispatchGoverned_claimAction {rest : Str} {call : GovernedCall}
    (h : withoutQuery path = "/v1/claims/".toList ++ rest) (hcall : claimCall rest = some call) :
    dispatchGoverned authority method path = call := by
  rw [dispatchGoverned_other h (by decide) (by decide) (by decide) (by decide) (by decide), h,
    Str.stripPrefix_append, Option.bind_some, hcall, Option.getD_some]

/-- A request's path goes to `find_request`, where authority is configured. -/
theorem dispatchGoverned_findRequest (h : withoutQuery path = "/v1/requests/".toList ++ id) :
    dispatchGoverned authority method path =
      if authority = false then .unavailable else .requestRoute (.findRequest id) := by
  have hstarts : withoutQuery path = "/v1/requests".toList ∨
      (withoutQuery path).startsWith "/v1/requests/".toList :=
    .inr (Str.startsWith_iff.mpr ⟨id, h.symm⟩)
  have hroute : requestRoute method path = .findRequest id := by
    rw [requestRoute, h, if_neg (append_ne_of_start (by decide) _), Str.stripPrefix_append,
      Option.elim_some]
  rw [dispatchGoverned_other h (by decide) (by decide) (by decide) (by decide) (by decide),
    if_pos hstarts, hroute, h, Str.stripPrefix_other (by decide) (by decide), Option.bind_none,
    Option.getD_none]

/-- A subscription's path goes to `disable_subscription`, where authority is configured. -/
theorem dispatchGoverned_disableSubscription
    (h : withoutQuery path = "/v1/subscriptions/".toList ++ id) :
    dispatchGoverned authority method path =
      if authority = false then .unavailable else .subscriptionRoute (.disableSubscription id) := by
  have hrequests : ¬ (withoutQuery path = "/v1/requests".toList ∨
      (withoutQuery path).startsWith "/v1/requests/".toList) := by
    rw [h, Str.startsWith, Str.stripPrefix_other (by decide) (by decide)]
    exact fun hor => hor.elim (append_ne_of_start (by decide) _) (by simp)
  have hroute : subscriptionRoute method path = .disableSubscription id := by
    rw [subscriptionRoute, h, if_neg (append_ne_of_start (by decide) _), Str.stripPrefix_append,
      Option.elim_some]
  rw [dispatchGoverned_other h (by decide) (by decide) (by decide) (by decide) (by decide),
    if_neg hrequests, hroute, h, Str.stripPrefix_other (by decide) (by decide), Option.bind_none,
    Option.getD_none]

/-- `dispatch` comes to the handler that a pattern names. -/
theorem dispatchGoverned_of_names {call : GovernedCall}
    (h : Names method (withoutQuery path) call) :
    dispatchGoverned authority method path =
      if call.needsAuthority && !authority then .unavailable else call := by
  -- A pattern without an identifier is one path, which is evaluated; the others have their own
  -- lemmas.
  generalize hpath : withoutQuery path = pattern at h
  cases h with
  | createSubscription =>
    rw [dispatchGoverned_withoutQuery, hpath]
    cases authority <;> decide
  | listSubscriptions =>
    rw [dispatchGoverned_withoutQuery, hpath]
    cases authority <;> decide
  | disableSubscription id =>
    rw [dispatchGoverned_disableSubscription hpath]
    cases authority <;> rfl
  | publishSchema =>
    rw [dispatchGoverned_withoutQuery, hpath]
    cases authority <;> decide
  | submitRequest =>
    rw [dispatchGoverned_withoutQuery, hpath]
    cases authority <;> decide
  | findRequest id =>
    rw [dispatchGoverned_findRequest hpath]
    cases authority <;> rfl
  | listEligibleRoutes =>
    rw [dispatchGoverned_withoutQuery, hpath]
    cases authority <;> decide
  | claimRoute id => exact dispatchGoverned_claimRoute hpath
  | findRoutedRequest id => exact dispatchGoverned_findRoutedRequest hpath
  | renewClaimRoute id =>
    exact dispatchGoverned_claimAction (hpath.trans (List.append_assoc ..)) claimCall_renew
  | releaseClaimRoute id =>
    exact dispatchGoverned_claimAction (hpath.trans (List.append_assoc ..)) claimCall_release
  | completeClaimRoute id =>
    exact dispatchGoverned_claimAction (hpath.trans (List.append_assoc ..)) claimCall_complete
  | renewInstanceRoute =>
    rw [dispatchGoverned_withoutQuery, hpath]
    cases authority <;> decide

end

/-- The paths in which the beginning and the end of a pattern overlap. -/
def overlappingPaths : List Str :=
  Languages.overlaps "/v1/routes/".toList "/claims".toList ++
    Languages.overlaps "/v1/routes/".toList "/request".toList ++
    Languages.overlaps "/v1/claims/".toList "/renew".toList ++
    Languages.overlaps "/v1/claims/".toList "/release".toList ++
    Languages.overlaps "/v1/claims/".toList "/complete".toList

/-- The paths that two patterns of the gate's table share, written out. -/
theorem overlappingPaths_eq :
    overlappingPaths = ["/v1/routes/claims".toList, "/v1/routes/request".toList,
    "/v1/claims/renew".toList, "/v1/claims/release".toList, "/v1/claims/complete".toList] := by
  decide

/-- A path with the beginning and the end of a pattern has an identifier between them, unless the
two overlap in it. -/
theorem exists_id_between {start final path : Str} (hstart : path.startsWith start = true)
    (hfinal : path.endsWith final = true) (h : path ∉ Languages.overlaps start final) :
    ∃ id, path = start ++ id ++ final :=
  (Languages.prefix_and_suffix_iff.mp ⟨Str.startsWith_iff.mp hstart,
    Str.endsWith_iff.mp hfinal⟩).resolve_right h

/-- What follows the start of a path is an identifier. -/
theorem exists_id_after {start path : Str} (hstart : path.startsWith start = true) :
    ∃ id, path = start ++ id :=
  (Str.startsWith_iff.mp hstart).imp fun _ => Eq.symm

/-- A supported method and path match a pattern, unless its beginning and its end overlap. -/
theorem exists_names {method path : Str} (hsupported : isSupportedGovernedMethod method path = true)
    (h : withoutQuery path ∉ overlappingPaths) : ∃ call, Names method (withoutQuery path) call := by
  rw [isSupportedGovernedMethod] at hsupported
  generalize withoutQuery path = p at hsupported h
  simp only [overlappingPaths, List.mem_append, not_or] at h
  simp only [isClaimActionPath, Bool.or_eq_true, Bool.and_eq_true, decide_eq_true_eq] at hsupported
  obtain ⟨⟨⟨⟨hclaims, hrequest⟩, hrenew⟩, hrelease⟩, hcomplete⟩ := h
  rcases hsupported with ((((((((⟨rfl, rfl | rfl⟩ | ⟨hstart, rfl⟩) | ⟨rfl, rfl⟩) | ⟨rfl, rfl⟩) |
    ⟨hstart, rfl⟩) | ⟨rfl, rfl⟩) | ⟨⟨hstart, hfinal⟩, rfl⟩) | ⟨⟨hstart, hfinal⟩, rfl⟩) |
    ⟨⟨hstart, (hfinal | hfinal) | hfinal⟩, rfl⟩) | ⟨rfl, rfl⟩
  · exact ⟨_, .listSubscriptions⟩
  · exact ⟨_, .createSubscription⟩
  · obtain ⟨id, rfl⟩ := exists_id_after hstart
    exact ⟨_, .disableSubscription id⟩
  · exact ⟨_, .publishSchema⟩
  · exact ⟨_, .submitRequest⟩
  · obtain ⟨id, rfl⟩ := exists_id_after hstart
    exact ⟨_, .findRequest id⟩
  · exact ⟨_, .listEligibleRoutes⟩
  · obtain ⟨id, rfl⟩ := exists_id_between hstart hfinal hclaims
    exact ⟨_, .claimRoute id⟩
  · obtain ⟨id, rfl⟩ := exists_id_between hstart hfinal hrequest
    exact ⟨_, .findRoutedRequest id⟩
  · obtain ⟨id, rfl⟩ := exists_id_between hstart hfinal hrenew
    exact ⟨_, .renewClaimRoute id⟩
  · obtain ⟨id, rfl⟩ := exists_id_between hstart hfinal hrelease
    exact ⟨_, .releaseClaimRoute id⟩
  · obtain ⟨id, rfl⟩ := exists_id_between hstart hfinal hcomplete
    exact ⟨_, .completeClaimRoute id⟩
  · exact ⟨_, .renewInstanceRoute⟩

/-- A pattern that names `subscription_route` is a pattern of subscriptions. -/
theorem Names.of_subscriptionRoute {method path : Str} {call : SubscriptionCall}
    (h : Names method path (.subscriptionRoute call)) : path = "/v1/subscriptions".toList ∨
      path.startsWith "/v1/subscriptions/".toList = true := by
  cases h with
  | createSubscription => exact .inl rfl
  | listSubscriptions => exact .inl rfl
  | disableSubscription id => exact .inr (Str.startsWith_iff.mpr (List.prefix_append ..))

/-- Whether there is an authority to ask does not matter for where a request comes to, if it comes
to a handler. -/
theorem dispatchGoverned_authority {a b : Bool} {method path : Str}
    (h : dispatchGoverned a method path ≠ .unavailable) :
    dispatchGoverned b method path = dispatchGoverned a method path ∨
      dispatchGoverned b method path = .unavailable := by
  unfold dispatchGoverned at h ⊢
  by_cases hschemas : withoutQuery path = "/v1/authority/schemas".toList
  · exact .inl (by rw [if_pos hschemas, if_pos hschemas])
  by_cases heligible : withoutQuery path = "/v1/routes/eligible".toList
  · exact .inl (by rw [if_neg hschemas, if_pos heligible, if_neg hschemas, if_pos heligible])
  rw [if_neg hschemas, if_neg heligible] at h ⊢
  rw [if_neg hschemas, if_neg heligible]
  generalize Option.or _ _ = named at h ⊢
  cases named with
  | some call => exact .inl rfl
  | none =>
    simp only [Option.getD_none] at h ⊢
    by_cases hrenew : withoutQuery path = "/v1/instances/renew".toList
    · exact .inl (by rw [if_pos hrenew, if_pos hrenew])
    simp only [if_neg hrenew] at h ⊢
    cases a with
    | false => exact absurd rfl h
    | true =>
      cases b with
      | false => exact .inr rfl
      | true => exact .inl rfl

/-- Where the beginning and the end of a pattern overlap, `dispatch` passes every branch. -/
theorem dispatchGoverned_overlapping {method path : Str}
    (h : withoutQuery path ∈ overlappingPaths) :
    dispatchGoverned true method path = .subscriptionRoute .notFound := by
  rw [dispatchGoverned_withoutQuery]
  generalize withoutQuery path = p at h
  rw [overlappingPaths_eq] at h
  simp only [List.mem_cons, List.not_mem_nil, or_false] at h
  rcases h with rfl | rfl | rfl | rfl | rfl <;> rfl

/-- `dispatch` agrees with the classification of a method and a path unless the beginning and the
end of the pattern overlap in the path. -/
theorem dispatch_agrees_iff {method path : Str} (hclassified : Classified method path) :
    Agrees method path ↔ withoutQuery path ∉ overlappingPaths := by
  constructor
  · intro hagrees hoverlap
    have hsubscriptions := hagrees.subscriptions true _ (dispatchGoverned_overlapping hoverlap)
    revert hsubscriptions hoverlap
    rw [overlappingPaths_eq]
    generalize withoutQuery path = p
    intro hoverlap
    simp only [List.mem_cons, List.not_mem_nil, or_false] at hoverlap
    rcases hoverlap with rfl | rfl | rfl | rfl | rfl <;> decide
  · intro hoverlap
    obtain ⟨call, hnames⟩ := exists_names hclassified.supported hoverlap
    refine ⟨⟨call, hnames, fun authority => dispatchGoverned_of_names hnames⟩, ?_⟩
    intro authority subscriptionCall hcall
    rw [dispatchGoverned_of_names hnames] at hcall
    split at hcall
    · cases hcall
    · subst hcall
      exact hnames.of_subscriptionRoute

/-- A renewal with a query is a case of it. -/
theorem dispatch_agrees_iff_renewal :
    Classified "POST".toList "/v1/claims/7/renew?now".toList ∧
      (Agrees "POST".toList "/v1/claims/7/renew?now".toList ↔
        withoutQuery "/v1/claims/7/renew?now".toList ∉ overlappingPaths) :=
  have hclassified : Classified "POST".toList "/v1/claims/7/renew?now".toList :=
    ⟨by decide, by decide⟩
  ⟨hclassified, dispatch_agrees_iff hclassified⟩

/-- A claim of a route without an identifier is let through, and is answered as a subscription that
is not found. -/
theorem dispatch_disagrees : ¬ ∀ method path, Classified method path → Agrees method path := by
  intro hall
  have hagrees := hall "POST".toList "/v1/routes/claims".toList ⟨by decide, by decide⟩
  have hsubscriptions : "/v1/routes/claims".toList = "/v1/subscriptions".toList ∨
      Str.startsWith "/v1/routes/claims".toList "/v1/subscriptions/".toList = true :=
    hagrees.subscriptions true .notFound (by decide)
  revert hsubscriptions
  decide

end InfernalLaw
