import TradingPlatform.Core.Types

/-!
# Wash sales

A loss is disallowed if the same security is bought again within thirty days. The checker
remembers the loss sales and answers whether a purchase falls into the window of one of them.
-/

namespace TradingPlatform

def washSaleWindowDays : ℤ := 30

/-- A sale at a loss. -/
structure WashSaleRecord where
  symbol : String
  agentId : AgentId
  saleDate : Date
  loss : Decimal
  deriving DecidableEq

structure WashSaleChecker where
  records : List WashSaleRecord

namespace WashSaleChecker

/-- Record the sale of a lot, if it was at a loss. -/
def recordSale (w : WashSaleChecker) (lot : Lot) : WashSaleChecker :=
  match lot.realizedPnl, lot.exitDate with
  | some pnl, some exitDate =>
    if pnl < 0 then
      { w with
        records := w.records ++
          [{ symbol := lot.symbol, agentId := lot.agentId, saleDate := exitDate, loss := pnl }] }
    else w
  | _, _ => w

/-- Whether buying a symbol on a day would trigger a wash sale. -/
def isBlocked (w : WashSaleChecker) (agentId : AgentId) (symbol : String) (buyDate : Date) :
    Bool :=
  w.records.any fun record =>
    record.agentId = agentId ∧ record.symbol = symbol ∧
      0 ≤ buyDate - record.saleDate ∧ buyDate - record.saleDate ≤ washSaleWindowDays

/-- The days left in the window, or zero. -/
def daysRemaining (w : WashSaleChecker) (agentId : AgentId) (symbol : String) (checkDate : Date) :
    ℤ :=
  w.records.foldl
    (fun best record =>
      let windowEnd := record.saleDate + washSaleWindowDays
      if record.agentId = agentId ∧ record.symbol = symbol ∧ checkDate ≤ windowEnd
      then max best (windowEnd - checkDate) else best)
    0

end WashSaleChecker

end TradingPlatform
