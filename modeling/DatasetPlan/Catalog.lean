import DatasetPlan.Primitive

namespace DatasetPlan.Catalog

def updateSemanticTypes : Primitive where
  id := "98c79128-555a-4a6b-85fb-d4f4064c94ab"
  version := "0.2.0"
  name := "Semantic type updater"
  path := "d3m.primitives.data_transformation.update_semantic_types.DatasetCommon"

def removeColumns : Primitive where
  id := "2eeff053-395a-497d-88db-7374c27812e6"
  version := "0.2.0"
  name := "Column remover"
  path := "d3m.primitives.data_transformation.remove_columns.DatasetCommon"

def denormalize : Primitive where
  id := "f31f8c1f-d1c5-43e5-a4b2-2ae4a761ef2e"
  version := "0.2.0"
  name := "Denormalize datasets"
  path := "d3m.primitives.data_transformation.denormalize.Common"

def datasetToDataframe : Primitive where
  id := "4b42ce1e-9b98-4a25-b68e-fad13311eb65"
  version := "0.3.0"
  name := "Extract a DataFrame from a Dataset"
  path := "d3m.primitives.data_transformation.dataset_to_dataframe.Common"

def columnParser : Primitive where
  id := "d510cb7a-1782-4f51-b44c-58f0236e47c7"
  version := "0.5.0"
  name := "Parses strings into their types"
  path := "d3m.primitives.data_transformation.column_parser.Common"

def pcaFeatures : Primitive where
  id := "04573880-d64f-4791-8932-52b7c3877639"
  version := "3.0.1"
  name := "PCA Features"
  path := "d3m.primitives.feature_selection.pca_features.Pcafeatures"

def simon : Primitive where
  id := "d2fa8df2-6517-3c26-bafc-87b701c4043a"
  version := "1.2.2"
  name := "simon"
  path := "d3m.primitives.data_cleaning.column_type_profiler.Simon"

def croc : Primitive where
  id := "404fae2a-2f0a-4c9b-9ad2-fb1528990561"
  version := "1.2.3"
  name := "croc"
  path := "d3m.primitives.digital_image_processing.croc.Croc"

def dataCleaning : Primitive where
  id := "fc6bf33a-f3e0-3496-aa47-9a40289661bc"
  version := "3.0.1"
  name := "Data cleaning"
  path := "d3m.primitives.data_cleaning.data_cleaning.Datacleaning"

def unicorn : Primitive where
  id := "475c26dc-eb2e-43d3-acdb-159b80d9f099"
  version := "1.1.1"
  name := "unicorn"
  path := "d3m.primitives.digital_image_processing.unicorn.Unicorn"

def timeSeriesLoader : Primitive where
  id := "1689aafa-16dc-4c55-8ad4-76cadcf46086"
  version := "0.1.0"
  name := "Time series loader"
  path := "d3m.primitives.data_preprocessing.timeseries_loader.DistilTimeSeriesLoader"

def sloth : Primitive where
  id := "77bf4b92-2faa-3e38-bb7e-804131243a7f"
  version := "2.0.5"
  name := "Sloth"
  path := "d3m.primitives.time_series_segmentation.cluster.Sloth"

def duke : Primitive where
  id := "46612a42-6120-3559-9db9-3aa9a76eb94f"
  version := "1.1.6"
  name := "duke"
  path := "d3m.primitives.data_cleaning.text_summarization.Duke"

def targetRanking : Primitive where
  id := "a31b0c26-cca8-4d54-95b9-886e23df8886"
  version := "0.1.0"
  name := "Mutual Information Feature Ranking"
  path := "d3m.primitives.feature_selection.mutual_info_classif.DistilMIRanking"

def goatForward : Primitive where
  id := "c7c61da3-cf57-354e-8841-664853370106"
  version := "1.0.7"
  name := "Goat_forward"
  path := "d3m.primitives.data_cleaning.geocoding.Goat_forward"

def goatReverse : Primitive where
  id := "f6e4880b-98c7-32f0-b687-a4b1d74c8f99"
  version := "1.0.7"
  name := "Goat_reverse"
  path := "d3m.primitives.data_cleaning.geocoding.Goat_reverse"

def join : Primitive where
  id := "6c3188bf-322d-4f9b-bb91-68151bf1f17f"
  version := "0.1.0"
  name := "Fuzzy Join Placeholder"
  path := "d3m.primitives.data_transformation.fuzzy_join.DistilFuzzyJoin"

def timeSeriesFormatter : Primitive where
  id := "1c4aed23-f3d3-4e6b-9710-009a9bc9b694"
  version := "0.1.0"
  name := "Time series formatter"
  path := "d3m.primitives.data_transformation.time_series_formatter.DistilTimeSeriesFormatter"

end DatasetPlan.Catalog
