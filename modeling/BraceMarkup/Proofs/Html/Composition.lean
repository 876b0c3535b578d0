import BraceMarkup.Proofs.Html.Layout

namespace BraceMarkup

namespace Element

variable {ℓ : Type} {limit level : Nat}

mutual

def preorder (level : Nat) : Element ℓ → List (Nat × Element ℓ)
  | .tag name attributes children location =>
    (level, .tag name attributes children location) :: preorderAll (level + 1) children
  | .text value location => [(level, .text value location)]
  | .raw value location => [(level, .raw value location)]
  | .foreign thing => [(level, .foreign thing)]

def preorderAll (level : Nat) : List (Element ℓ) → List (Nat × Element ℓ)
  | [] => []
  | e :: es => preorder level e ++ preorderAll level es

end

def foreign? : Element ℓ → Option Foreign
  | .foreign thing => some thing
  | .tag _ _ _ _ | .text _ _ | .raw _ _ => none

def obstacle? (limit : Nat) (x : Nat × Element ℓ) : Option Html.Obstacle :=
  (x.2.foreign?.map .foreign).or (tooDeep? limit x.1)

mutual

theorem firstForeign_eq_findSome? : ∀ (level : Nat) (e : Element ℓ),
    e.firstForeign = (preorder level e).findSome? (·.2.foreign?)
  | level, .tag _ _ children _ => by
    rw [firstForeign, preorder, List.findSome?_cons,
      firstForeignAll_eq_findSome? (level + 1) children]
    rfl
  | _, .text _ _ | _, .raw _ _ | _, .foreign _ => rfl

theorem firstForeignAll_eq_findSome? : ∀ (level : Nat) (es : List (Element ℓ)),
    firstForeignAll es = (preorderAll level es).findSome? (·.2.foreign?)
  | _, [] => rfl
  | level, e :: es => by
    rw [firstForeignAll, preorderAll, List.findSome?_append, firstForeign_eq_findSome? level e,
      firstForeignAll_eq_findSome? level es]

end

mutual

theorem firstObstacle_eq_findSome? : ∀ (level : Nat) (e : Element ℓ),
    firstObstacle limit level e = (preorder level e).findSome? (obstacle? limit)
  | level, .tag name attributes children location => by
    have hfirst : obstacle? limit (level, .tag name attributes children location) =
        tooDeep? limit level := Option.none_or
    rw [firstObstacle, preorder, List.findSome?_cons, hfirst,
      firstObstacleAll_eq_findSome? (level + 1) children]
    cases tooDeep? limit level <;> rfl
  | level, .text _ _ | level, .raw _ _ => by
    rw [firstObstacle, preorder, List.findSome?_singleton]
    exact Option.none_or.symm
  | _, .foreign _ => rfl

theorem firstObstacleAll_eq_findSome? : ∀ (level : Nat) (es : List (Element ℓ)),
    firstObstacleAll limit level es = (preorderAll level es).findSome? (obstacle? limit)
  | _, [] => rfl
  | level, e :: es => by
    rw [firstObstacleAll, preorderAll, List.findSome?_append, firstObstacle_eq_findSome? level e,
      firstObstacleAll_eq_findSome? level es]

end

end Element

open Element Html

variable {ℓ : Type} {limit : Nat}

end BraceMarkup
