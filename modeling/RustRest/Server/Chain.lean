import Mathlib

/-!
# The middleware chain

`execute_chain` wraps a handler in the middlewares of its route and of the application, each layer guarded against
panics and followed by the rendering of errors. What a middleware, the error renderer and a handler do is the
environment `ChainEnv`; a panic is `none`.

Main result: **`executeChain_denied`**.
-/

namespace RustRest

variable {M Req Resp : Type}

/-- What the layers of a chain do. `render` is `render_response_error` with the application's error handler. -/
structure ChainEnv (M Req Resp : Type) where
  apply : M → Req → (Req → Resp) → Option Resp
  render : Resp → Resp
  panicResponse : Resp

variable (env : ChainEnv M Req Resp)

/-- A panic becomes a response; errors are rendered. -/
def guardedNext (next : Req → Option Resp) (req : Req) : Resp :=
  env.render ((next req).getD env.panicResponse)

/-- One turn of the loops of `execute_chain`. -/
def wrap (next : Req → Resp) (middleware : M) : Req → Resp :=
  guardedNext env (fun req => env.apply middleware req next)

/-- `App::execute_chain`, with the deadline left to the handler. -/
def executeChain (appMiddlewares routeMiddlewares : List M) (next : Req → Option Resp)
    (req : Req) : Resp :=
  let next := guardedNext env next
  let next := routeMiddlewares.reverse.foldl (wrap env) next
  let next := appMiddlewares.reverse.foldl (wrap env) next
  env.render (next req)

theorem executeChain_eq_foldr (appMiddlewares routeMiddlewares : List M)
    (next : Req → Option Resp) (req : Req) : executeChain env appMiddlewares routeMiddlewares next req =
      env.render ((appMiddlewares ++ routeMiddlewares).foldr (fun m next => wrap env next m) (guardedNext env next) req)
    := by
  simp only [executeChain, List.foldl_reverse, List.foldr_append]

def ChainEnv.Keeps (S : Set Req) (m : M) : Prop :=
  ∀ req ∈ S, ∀ next next' : Req → Resp, (∀ q ∈ S, next q = next' q) → env.apply m req next = env.apply m req next'

def ChainEnv.Denies (S : Set Req) (m : M) : Prop :=
  ∀ req ∈ S, ∀ next next' : Req → Resp, env.apply m req next = env.apply m req next'

theorem foldr_denied {env : ChainEnv M Req Resp} {S : Set Req} {m : M} (hdeny : env.Denies S m) :
    ∀ {chain : List M}, m ∈ chain → (∀ n ∈ chain, env.Keeps S n) → ∀ (next next' : Req → Resp), ∀ req ∈ S,
      chain.foldr (fun m next => wrap env next m) next req = chain.foldr (fun m next => wrap env next m) next' req
  | n :: chain, hm, hkeeps, next, next', req, hreq => by
    simp only [List.foldr_cons, wrap, guardedNext]
    congr 2
    rcases List.mem_cons.1 hm with rfl | hm
    · exact hdeny req hreq _ _
    · refine hkeeps n List.mem_cons_self req hreq _ _ fun q hq => ?_
      exact foldr_denied hdeny hm (fun k hk => hkeeps k (List.mem_cons_of_mem _ hk)) next next' q hq

theorem executeChain_denied {env : ChainEnv M Req Resp} {S : Set Req} {appMiddlewares routeMiddlewares : List M} {m : M}
    (hm : m ∈ appMiddlewares ++ routeMiddlewares) (hkeeps : ∀ n ∈ appMiddlewares ++ routeMiddlewares, env.Keeps S n)
    (hdeny : env.Denies S m) {req : Req} (hreq : req ∈ S) (next next' : Req → Option Resp) :
    executeChain env appMiddlewares routeMiddlewares next req =
      executeChain env appMiddlewares routeMiddlewares next' req := by
  rw [executeChain_eq_foldr, executeChain_eq_foldr, foldr_denied hdeny hm hkeeps _ _ req hreq]

end RustRest
