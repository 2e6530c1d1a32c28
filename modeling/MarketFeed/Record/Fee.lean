import MarketFeed.Json.Shape

/-!
Trading fees.
-/

namespace MarketFeed

/-- An amount charged in some currency, with the rate where it is reported. -/
structure Fee where
  currency : String
  cost : Decimal
  rate : Option Decimal
deriving DecidableEq, Repr

namespace Fee

open Json (Layout RecordField Reader)

/-- No fee yet, in the given currency. -/
def ofCurrency (currency : String) : Fee := ⟨currency, .zero, none⟩

def shape : List (RecordField Fee) :=
  [.required "currency" (fun _ => Reader.text) fun fee currency => { fee with currency },
    .required "cost" (fun _ => Reader.decimal) fun fee cost => { fee with cost },
    .optional "rate" (fun _ => Reader.decimal) fun fee rate => { fee with rate }]

def reader : (levels : Nat) → Reader Fee := Reader.record shape (ofCurrency "")

def encode (layout : Layout) (fee : Fee) : Json :=
  layout.object
    [("currency", .str fee.currency),
      ("cost", .str fee.cost.toText),
      ("rate", .ofOption (fun rate => .str rate.toText) fee.rate)]

def toJson (fee : Fee) : Json := fee.encode .ascending

end Fee

end MarketFeed
