namespace LayeredAssets.Text

/-- By code points, which is also the order of the bytes that write them. -/
def sorted (names : List String) : List String := names.mergeSort (fun a b => decide (a ≤ b))

end LayeredAssets.Text
