import MessageCalls.Word
/-!
# MessageCalls.Account.View

What can be read of all accounts at one moment. Both stored state and pending state are seen
through an `AccountView`, so "the two agree" is an equation between views.
-/

namespace MessageCalls

/-- What transfers and creations need to know of one account. -/
structure AccountBasics where
  balance : Amount
  nonce : Nonce
  deriving DecidableEq, Repr

/-- The readings of every account. An account that is not present reads as an empty one. -/
structure AccountView where
  balance : Address → Amount
  nonce : Address → Nonce
  code : Address → Bytes
  codeHash : Address → Word
  storage : Address → Word → Word
  /-- The account is present. -/
  present : Address → Bool

namespace AccountView

/-- The balance and the nonce of an account. -/
def basics (v : AccountView) (a : Address) : AccountBasics := ⟨v.balance a, v.nonce a⟩

@[ext] theorem ext {v w : AccountView} (balance : ∀ a, v.balance a = w.balance a)
    (nonce : ∀ a, v.nonce a = w.nonce a) (code : ∀ a, v.code a = w.code a)
    (codeHash : ∀ a, v.codeHash a = w.codeHash a)
    (storage : ∀ a k, v.storage a k = w.storage a k)
    (present : ∀ a, v.present a = w.present a) : v = w := by
  cases v
  cases w
  simp only [mk.injEq]
  exact ⟨funext balance, funext nonce, funext code, funext codeHash,
    funext fun a => funext (storage a), funext present⟩

end AccountView

end MessageCalls
